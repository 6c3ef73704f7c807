import DiagramLayout.Proofs.Route.Alignment
import DiagramLayout.Proofs.Route.Blocking
import DiagramLayout.Proofs.Single.Products

/-!
# Sizes of grids

A lattice that is laid over any points and rectangles, whatever their numbers are, has at least two
columns and rows and no more cells than may be searched, and a grid on it has one mark for each cell.
-/

namespace DiagramLayout

open Single

/-- At least two columns and rows, and no more cells than may be searched. -/
structure Lattice.IsModest (l : Lattice) : Prop where
  two_le_cols : 2 ≤ l.cols
  two_le_rows : 2 ≤ l.rows
  size_le : l.size ≤ maxCells

/-- A modest lattice with one mark for each cell. -/
structure Grid.IsModest (g : Grid) : Prop where
  lattice : g.lattice.IsModest
  size_blocked : g.blocked.size = g.lattice.size

namespace Lattice

variable {l : Lattice}

theorem IsModest.cols_le (h : l.IsModest) :
  l.cols ≤ 2000000
  := by
  have hsize : l.cols * l.rows ≤ 4000000 := h.size_le
  have hrows := Nat.mul_le_mul_left l.cols h.two_le_rows
  omega

theorem IsModest.rows_le (h : l.IsModest) :
  l.rows ≤ 2000000
  := by
  have hsize : l.cols * l.rows ≤ 4000000 := h.size_le
  have hcols := Nat.mul_le_mul_right l.rows h.two_le_cols
  omega

/-- There are at least two vertices along each axis. -/
theorem two_le_axisCount (start high pitch : Float32) :
  2.0 ≤ axisCount start high pitch
  := le_greater _ isWhole_two.isNumber

/-- A lattice that is used has at most four million vertices. -/
theorem product_le_of_cover? {origin : Point} {points : List Point} {rects : List Rect}
    {gridSize margin : Float32} (h : cover? origin points rects gridSize margin = some l) :
  axisCount l.corner.x ((Extent.of points rects).maxX + margin) l.pitch
    * axisCount l.corner.y ((Extent.of points rects).maxY + margin) l.pitch
      ≤ Float32.ofNat maxCells
  := by
  simp only [cover?] at h
  split_ifs at h with hfinite hsize
  obtain rfl := Option.some.inj h
  apply hsize

/-- Every lattice that is laid is modest. -/
theorem isModest_of_cover? {origin : Point} {points : List Point} {rects : List Rect}
    {gridSize margin : Float32} (h : cover? origin points rects gridSize margin = some l) :
  l.IsModest
  := by
  obtain ⟨-, -, -, hcols, hrows⟩ := cover?_eq_some h
  have hcols' := axisCount_bounds l.corner.x ((Extent.of points rects).maxX + margin) l.pitch
  have hrows' := axisCount_bounds l.corner.y ((Extent.of points rects).maxY + margin) l.pitch
  have hproduct := toInt32_mul_le (two_le_axisCount _ _ _) (two_le_axisCount _ _ _)
    (by norm_num [maxCells]) (product_le_of_cover? h)
  rw [← Int.toNat_of_nonneg (a := toInt32 (axisCount l.corner.x _ _)) (by omega), ← hcols,
    ← Int.toNat_of_nonneg (a := toInt32 (axisCount l.corner.y _ _)) (by omega), ← hrows]
    at hproduct
  refine ⟨by omega, by omega, ?_⟩
  rw [size]
  exact_mod_cast hproduct

end Lattice

namespace Grid

variable {g : Grid}

/-- Every grid that is built is modest. -/
theorem isModest_of_build? {origin : Point} {points : List Point} {rects : List Rect}
    {gridSize margin : Float32} (h : build? origin points rects gridSize margin = some g) :
  g.IsModest
  := by
  obtain ⟨l, hl, rfl⟩ := Option.map_eq_some_iff.mp h
  refine ⟨Lattice.isModest_of_cover? hl, ?_⟩
  apply List.foldlRecOn (motive := fun m : Array Bool => m.size = l.size) rects _
  · apply Array.size_replicate
  · intro m hm r _
    rw [size_markRect, hm]

/-- Freeing a cell keeps a grid modest. -/
theorem IsModest.free (h : g.IsModest) (c : Cell) :
  (g.free c).IsModest
  := by
  refine ⟨h.lattice, ?_⟩
  rw [Grid.free, Array.size_setIfInBounds, h.size_blocked]

end Grid

end DiagramLayout
