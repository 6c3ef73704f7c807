import DiagramLayout.Proofs.Route.Covering
import DiagramLayout.Proofs.Single.Magnitude

/-!
# The reach of a lattice

A lattice has at least two vertices along each axis, so that there is a nearest cell for every point,
a point that is not finite included. A lattice over points and rectangles with finite numbers of
moderate magnitude has finite vertices, wherever its axes start and however many cells it has.
-/

namespace DiagramLayout

open Single

/-- Both coordinates of the point are finite and of magnitude at most `2 ^ k`. -/
structure Point.IsWithin (p : Point) (k : ℕ) : Prop where
  x : Single.IsWithin p.x k
  y : Single.IsWithin p.y k

theorem Point.IsWithin.mono {p : Point} {j k : ℕ} (h : p.IsWithin j) (hjk : j ≤ k) :
  p.IsWithin k
  := by
  exact ⟨h.x.mono hjk, h.y.mono hjk⟩

/-! ### Extents -/

namespace Extent

/-- The least coordinates are finite and of magnitude at most `2 ^ k`. -/
structure StartsWithin (e : Extent) (k : ℕ) : Prop where
  minX : IsWithin e.minX k
  minY : IsWithin e.minY k

variable {e : Extent} {k : ℕ} {left top : Float32}

/-- An extent that reaches over more stays within the bound, when the new ends are. -/
theorem StartsWithin.reach (he : e.StartsWithin k) (hleft : IsWithin left k)
    (htop : IsWithin top k) (hk : k < 128) (right bottom : Float32) :
  (e.reach left top right bottom).StartsWithin k
  := by
  constructor
  · apply IsWithin.lesser he.minX.isRational.isNumber _ hleft hk
    apply (abs_le.mp he.minX.bounded).1
  · apply IsWithin.lesser he.minY.isRational.isNumber _ htop hk
    apply (abs_le.mp he.minY.bounded).1

/-- An extent over one thing is within the bound of its ends. -/
theorem startsWithin_reach_empty (hleft : IsWithin left k) (htop : IsWithin top k) (hk : k < 128)
    (right bottom : Float32) :
  (empty.reach left top right bottom).StartsWithin k
  := by
  have hlargest : -2 ^ k ≤ value largest := by
    rw [isWhole_largest.value_eq]
    have hpow : (0 : ℚ) ≤ 2 ^ k := by positivity
    push_cast
    linarith
  constructor
  · apply IsWithin.lesser isWhole_largest.isNumber hlargest hleft hk
  · apply IsWithin.lesser isWhole_largest.isNumber hlargest htop hk

/-- The extent of at least one point starts within the same magnitude as all points and rectangles. -/
theorem startsWithin_of {p : Point} {points : List Point} {rects : List Rect}
    (hpoints : ∀ q ∈ p :: points, q.IsWithin k)
    (hrects : ∀ r ∈ rects, IsWithin r.x k ∧ IsWithin r.y k) (hk : k < 128) :
  (Extent.of (p :: points) rects).StartsWithin k
  := by
  have hp := hpoints p List.mem_cons_self
  rw [Extent.of, List.foldl_cons]
  apply List.foldlRecOn (motive := fun e : Extent => e.StartsWithin k) rects
  · apply List.foldlRecOn (motive := fun e : Extent => e.StartsWithin k) points
    · apply startsWithin_reach_empty hp.x hp.y hk
    · intro e he q hq
      have hq := hpoints q (List.mem_cons_of_mem p hq)
      apply he.reach hq.x hq.y hk
  · intro e he r hr
    obtain ⟨hx, hy⟩ := hrects r hr
    apply he.reach hx hy hk

end Extent

/-! ### Axes -/

namespace Lattice

variable {origin low start pitch : Float32} {i : ℕ}

/-- The first vertex along an axis is within bounds. -/
theorem isWithin_axisStart (horigin : IsWithin origin 21) (hlow : IsWithin low 22)
    (hpitch : IsWithin pitch 20) (hone : 1 ≤ value pitch) :
  IsWithin (axisStart origin low pitch) 45
  := by
  have hdist : IsWithin (origin - low) 23 := (horigin.mono (by omega)).sub hlow (by omega)
  have hsteps : IsWithin (Single.ceil ((origin - low) / pitch)) 24 :=
    (hdist.div hpitch.isRational hone (by omega)).ceil
  have hlength : IsWithin (Single.ceil ((origin - low) / pitch) * pitch) 44 :=
    hsteps.mul hpitch (by omega)
  apply (horigin.mono (by omega)).sub hlength (by omega)

/-- Every vertex along an axis is within bounds. -/
theorem isWithin_vertex (hstart : IsWithin start 45) (hpitch : IsWithin pitch 20) (hi : i < 2 ^ 31) :
  IsWithin (start + Float32.ofNat i * pitch) 52
  := by
  have hoffset : IsWithin (Float32.ofNat i * pitch) 51 :=
    (isWithin_ofNat hi.le (by omega)).mul hpitch (by omega)
  apply (hstart.mono (by omega)).add hoffset (by omega)

/-- The nearest vertex is one of those along the axis. -/
theorem nearestOnAxis_lt (x start pitch : Float32) {count : ℕ} (h : 0 < count) :
  nearestOnAxis x start pitch count < count
  := by
  rw [nearestOnAxis]
  omega

/-- There are at least two vertices along an axis, and not too many to be counted. -/
theorem axisCount_bounds (start high pitch : Float32) :
  2 ≤ toInt32 (axisCount start high pitch) ∧ toInt32 (axisCount start high pitch) < 2 ^ 31
  := by
  have hle := toInt32_le (axisCount start high pitch)
  constructor
  · apply two_le_toInt32 (le_greater _ isWhole_two.isNumber)
  · omega

/-! ### Lattices -/

variable {l : Lattice} {origin : Point} {points : List Point} {rects : List Rect}
  {gridSize margin : Float32} {cell : Cell}

/-- A lattice has at least two vertices along each axis. -/
theorem count_bounds (h : cover? origin points rects gridSize margin = some l) :
  (2 ≤ l.cols ∧ l.cols < 2 ^ 31) ∧ 2 ≤ l.rows ∧ l.rows < 2 ^ 31
  := by
  obtain ⟨-, -, -, hcols, hrows⟩ := cover?_eq_some h
  have hcols' := axisCount_bounds l.corner.x ((Extent.of points rects).maxX + margin) l.pitch
  have hrows' := axisCount_bounds l.corner.y ((Extent.of points rects).maxY + margin) l.pitch
  omega

/-- Every point has a nearest cell. -/
theorem inBounds_nearestCell (h : cover? origin points rects gridSize margin = some l) (p : Point) :
  l.inBounds (l.nearestCell p) = true
  := by
  obtain ⟨⟨hcols, -⟩, hrows, -⟩ := count_bounds h
  apply inBounds_iff.mpr
  constructor
  · apply nearestOnAxis_lt
    omega
  · apply nearestOnAxis_lt
    omega

/-- The vertices of a lattice over moderate points and rectangles are finite. -/
theorem isWithin_vertex_of_cover? {p : Point}
    (h : cover? origin (p :: points) rects gridSize margin = some l) (horigin : origin.IsWithin 21)
    (hpoints : ∀ q ∈ p :: points, q.IsWithin 21)
    (hrects : ∀ r ∈ rects, IsWithin r.x 21 ∧ IsWithin r.y 21) (hgrid : IsWithin gridSize 20)
    (hmargin : IsWithin margin 20) (hcell : l.inBounds cell = true) :
  (l.vertex cell).IsWithin 52
  := by
  obtain ⟨hpitch, hx, hy, -, -⟩ := cover?_eq_some h
  obtain ⟨⟨-, hcols⟩, -, hrows⟩ := count_bounds h
  obtain ⟨hcol, hrow⟩ := inBounds_iff.mp hcell
  have hwithin : IsWithin l.pitch 20 := by
    rw [hpitch]
    apply hgrid.greater (isWhole_one.isWithin (by norm_num))
  have hone : 1 ≤ value l.pitch := by
    have hle := (le_iff.mp (le_greater gridSize isWhole_one.isNumber)).2.2
    rw [isWhole_one.value_eq, Int.cast_one, ← hpitch] at hle
    apply hle
  have hextent := Extent.startsWithin_of hpoints hrects (by omega)
  have hcorner : ∀ {o low : Float32}, IsWithin o 21 → IsWithin low 21 →
      IsWithin (axisStart o (low - margin) l.pitch) 45 := by
    intro o low ho hlow
    apply isWithin_axisStart ho (hlow.sub (hmargin.mono (by omega)) (by omega)) hwithin hone
  constructor
  · apply isWithin_vertex _ hwithin (by omega)
    rw [hx]
    apply hcorner horigin.x hextent.minX
  · apply isWithin_vertex _ hwithin (by omega)
    rw [hy]
    apply hcorner horigin.y hextent.minY

end Lattice

end DiagramLayout
