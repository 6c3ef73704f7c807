import DiagramLayout.Proofs.Plane.Overlap
import DiagramLayout.Proofs.Route.Clearance

/-!
# Grids as rasters

A grid over modest points and rectangles is an exact raster of them. Its vertices stand a whole pitch
apart and the origin is one of them, no point is farther than half a pitch from the vertex it is taken
to, and the blocked cells are those whose vertices lie in one of the rectangles, whether a rectangle
ends on a vertex, between two of them or beyond the grid.
-/

namespace DiagramLayout

open Single

/-! ### Closed rectangles -/

/-- The places of a rectangle, its border included. -/
def Rect.region (r : Rect) : Set (ℝ × ℝ) :=
  Set.Icc (value r.x : ℝ) (value r.x + value r.width)
    ×ˢ Set.Icc (value r.y : ℝ) (value r.y + value r.height)

section Region

variable {r : Rect} {p : Point} {a b w h m n : ℤ}

/-- A rectangle on whole coordinates is a product of closed intervals. -/
theorem Rect.IsAt.region_eq (hr : r.IsAt a b w h) :
  r.region = Set.Icc (a : ℝ) (a + w) ×ˢ Set.Icc (b : ℝ) (b + h)
  := by
  simp only [Rect.region, hr.x.value_eq, hr.y.value_eq, hr.width.value_eq, hr.height.value_eq,
    Rat.cast_intCast]

/-- The test for containment is exact where the ends of the rectangle are. -/
theorem Rect.IsAt.contains_iff (hr : r.IsAt a b w h) (hspans : r.Spans a (a + w) b (b + h))
    (hp : p.IsAt m n) :
  r.contains p = true ↔ p.place ∈ r.region
  := by
  rw [hspans.contains_iff hp, hr.region_eq, hp.place_eq, Set.mem_prod, Set.mem_Icc, Set.mem_Icc]
  dsimp only
  norm_cast

end Region

/-! ### Rasters -/

/-- All numbers are integers of magnitude at most a million, the pitch is at least one and the margin is
not negative. A rectangle may have a negative size: it holds no place and blocks no cell. -/
structure Grid.IsModestPlan (points : List Point) (rects : List Rect) (gridSize margin : Float32) :
    Prop where
  point : ∀ p ∈ points, Single.IsModest p.x ∧ Single.IsModest p.y
  rect : ∀ r ∈ rects, Single.IsModest r.x ∧ Single.IsModest r.y ∧ Single.IsModest r.width
    ∧ Single.IsModest r.height
  pitch : Single.IsModest gridSize ∧ 1 ≤ value gridSize
  border : Single.IsModest margin ∧ 0 ≤ value margin

/-- The vertices stand `gridSize` apart on whole coordinates. The origin is the vertex it is taken to, each
point is taken to a vertex at most half a pitch away along both axes, and a cell is blocked when its
vertex lies in one of the rectangles, and only then. -/
structure Grid.IsRaster (g : Grid) (origin : Point) (points : List Point) (rects : List Rect)
    (gridSize : Float32) : Prop where
  spaced : ∃ s t c : ℤ, IsWhole gridSize c ∧ ∀ cell, g.lattice.inBounds cell = true →
    (g.lattice.vertex cell).IsAt (s + cell.col * c) (t + cell.row * c)
  exact : g.lattice.inBounds (g.lattice.nearestCell origin) = true
    ∧ (g.lattice.vertex (g.lattice.nearestCell origin)).place = origin.place
  near : ∀ p ∈ points, g.lattice.inBounds (g.lattice.nearestCell p) = true
    ∧ |p.place.1 - (g.lattice.vertex (g.lattice.nearestCell p)).place.1| ≤ value gridSize / 2
    ∧ |p.place.2 - (g.lattice.vertex (g.lattice.nearestCell p)).place.2| ≤ value gridSize / 2
  blocked : ∀ cell, g.lattice.inBounds cell = true →
    (g.isBlocked cell = true ↔ ∃ r ∈ rects, (g.lattice.vertex cell).place ∈ r.region)

namespace Grid

variable {g : Grid} {l : Lattice} {origin p : Point} {points : List Point} {rects : List Rect}
  {r : Rect} {gridSize margin : Float32} {s t c : ℤ} {cell : Cell}

/-- The pitch and the margin of a modest plan are whole and within bounds. -/
theorem IsModestPlan.exists_lengths (h : IsModestPlan points rects gridSize margin) :
  ∃ c d : ℤ, IsWhole gridSize c ∧ IsWhole margin d ∧ (1 ≤ c ∧ c ≤ 1000000) ∧ 0 ≤ d ∧ d ≤ 1000000
  := by
  obtain ⟨⟨c, hc, hc'⟩, hone⟩ := h.pitch
  obtain ⟨⟨d, hd, hd'⟩, hnonneg⟩ := h.border
  rw [hc.value_eq] at hone
  rw [hd.value_eq] at hnonneg
  refine ⟨c, d, hc, hd, ⟨?_, (abs_le.mp hc').2⟩, ?_, (abs_le.mp hd').2⟩
  · exact_mod_cast hone
  · exact_mod_cast hnonneg

/-- The ends of a rectangle are whole, and none is out of reach of exact arithmetic. -/
theorem IsModestPlan.exists_isAt (h : IsModestPlan points rects gridSize margin) (hr : r ∈ rects) :
  ∃ a b w k, r.IsAt a b w k ∧ r.Spans a (a + w) b (b + k) ∧ r.IsConfined
  := by
  obtain ⟨⟨a, ha, ha'⟩, ⟨b, hb, hb'⟩, ⟨w, hw, hw'⟩, ⟨k, hk, hk'⟩⟩ := h.rect r hr
  have hat : r.IsAt a b w k := ⟨ha, hb, hw, hk⟩
  rw [abs_le] at ha' hb' hw' hk'
  have hspans := hat.spans (by rw [abs_le]; omega) (by rw [abs_le]; omega)
  exact ⟨a, b, w, k, hat, hspans, _, _, _, _, hspans, by omega, by omega⟩

/-- A distance from a vertex that is at most half a pitch in integers is so in the plane. -/
theorem abs_sub_le_half {m i : ℤ} (hgrid : IsWhole gridSize c) (h : 2 * |m - i| ≤ c) :
  |(m : ℝ) - i| ≤ value gridSize / 2
  := by
  have hcast : 2 * |(m : ℝ) - i| ≤ c := by exact_mod_cast h
  rw [hgrid.value_eq, Rat.cast_intCast]
  linarith

/-- On an exact lattice, the cells that are blocked are those whose vertices lie in a rectangle. -/
theorem isBlocked_iff (h : IsModestPlan points rects gridSize margin) (hl : l.IsExact s t c)
    (hcell : l.inBounds cell = true) :
  (ofRects l rects).isBlocked cell = true ↔ ∃ r ∈ rects, (l.vertex cell).place ∈ r.region
  := by
  have hvertex := hl.vertex hcell
  constructor
  · intro hblocked
    by_contra! hnone
    have hfree : (ofRects l rects).isBlocked cell = false := by
      apply isBlocked_ofRects_eq_false hcell
      intro r hr
      obtain ⟨a, b, w, k, hat, hspans, -⟩ := h.exists_isAt hr
      rw [← Bool.not_eq_true, hat.contains_iff hspans hvertex]
      exact hnone r hr
    rw [hfree] at hblocked
    contradiction
  · rintro ⟨r, hr, hin⟩
    obtain ⟨a, b, w, k, hat, hspans, hconfined⟩ := h.exists_isAt hr
    exact isBlocked_ofRects hl hr hconfined hcell ((hat.contains_iff hspans hvertex).mpr hin)

/-- A grid that is built over a modest plan through one of its points is a raster of the plan. -/
theorem isRaster_of_build? (h : build? origin points rects gridSize margin = some g)
    (hmem : origin ∈ points) (hplan : IsModestPlan points rects gridSize margin) :
  g.IsRaster origin points rects gridSize
  := by
  obtain ⟨l, hcover, rfl⟩ := Option.map_eq_some_iff.mp h
  obtain ⟨c, d, hgrid, hmargin, ⟨hc, hc'⟩, hd, hd'⟩ := hplan.exists_lengths
  have hpoints : ∀ p ∈ points, ∃ m n, p.IsAt m n ∧ |m| ≤ 1000000 ∧ |n| ≤ 1000000 := by
    intro p hp
    obtain ⟨⟨m, hm, hm'⟩, ⟨n, hn, hn'⟩⟩ := hplan.point p hp
    exact ⟨m, n, ⟨hm, hn⟩, hm', hn'⟩
  have hwide : ∀ p ∈ points, ∃ m n, p.IsAt m n ∧ |m| ≤ 2000000 ∧ |n| ≤ 2000000 := by
    intro p hp
    obtain ⟨m, n, hmn, hm, hn⟩ := hpoints p hp
    exact ⟨m, n, hmn, hm.trans (by norm_num), hn.trans (by norm_num)⟩
  have hconfined : ∀ r ∈ rects, r.IsConfined := by
    intro r hr
    obtain ⟨_, _, _, _, -, -, hconfined⟩ := hplan.exists_isAt hr
    exact hconfined
  obtain ⟨o, o', horigin, -, -⟩ := hpoints origin hmem
  obtain ⟨s, t, hl, hplace, hin⟩ := Lattice.exists_isExact hcover hgrid hc hc' hmargin hd hd' horigin
    hmem hwide hconfined
  -- The extent reaches around all points, so each of them has a vertex within half a cell.
  have hnear : ∀ p ∈ points, l.inBounds (l.nearestCell p) = true
      ∧ |p.place.1 - (l.vertex (l.nearestCell p)).place.1| ≤ value gridSize / 2
      ∧ |p.place.2 - (l.vertex (l.nearestCell p)).place.2| ≤ value gridSize / 2 := by
    intro p hp
    obtain ⟨m, n, hmn, hm, hn⟩ := hpoints p hp
    obtain ⟨hcell, hx, hy⟩ := hl.nearestCell hmn (hm.trans (by norm_num)) (hn.trans (by norm_num))
      (hin p hp m n hmn)
    rw [hmn.place_eq, (hl.vertex hcell).place_eq]
    exact ⟨hcell, abs_sub_le_half hgrid hx, abs_sub_le_half hgrid hy⟩
  constructor
  case spaced => exact ⟨s, t, c, hgrid, fun _ => hl.vertex⟩
  case exact =>
    have hcell := (hnear origin hmem).1
    refine ⟨hcell, ?_⟩
    change (l.vertex (l.nearestCell origin)).place = origin.place
    rw [(hl.vertex hcell).place_eq, hplace.place_eq]
  case near => exact hnear
  case blocked => exact fun _ => isBlocked_iff hplan hl

/-- The second point is halfway between two vertices. -/
def twoPoints : List Point :=
  [⟨1.0, 0.0⟩, ⟨-2.0, 2.0⟩]

/-- A box from one vertex to the middle between two. -/
def oneBox : List Rect :=
  [⟨-1.0, 0.0, 1.0, 2.0⟩]

theorem isModestPlan_oneBox :
  IsModestPlan twoPoints oneBox 2.0 1.0
  := by
  have hone : Single.IsModest 1.0 := ⟨1, isWhole_one, by norm_num⟩
  have htwo : Single.IsModest 2.0 := ⟨2, isWhole_two, by norm_num⟩
  have hzero : Single.IsModest 0.0 := ⟨0, isWhole_zero, by norm_num⟩
  have hminusOne : Single.IsModest (-1.0) := ⟨-1, isWhole_one.neg, by norm_num⟩
  have hminusTwo : Single.IsModest (-2.0) := ⟨-2, isWhole_two.neg, by norm_num⟩
  constructor
  case point =>
    intro p hp
    rcases List.mem_pair.mp hp with rfl | rfl
    · exact ⟨hone, hzero⟩
    · exact ⟨hminusTwo, htwo⟩
  case rect =>
    intro r hr
    obtain rfl := List.mem_singleton.mp hr
    exact ⟨hminusOne, hzero, hone, htwo⟩
  case pitch =>
    refine ⟨htwo, ?_⟩
    rw [isWhole_two.value_eq]
    norm_num
  case border =>
    refine ⟨hone, ?_⟩
    rw [isWhole_one.value_eq]
    norm_num

/-- The grid over two points and a box is a raster. -/
theorem isRaster_oneBox :
  ⟨1.0, 0.0⟩ ∈ twoPoints ∧ IsModestPlan twoPoints oneBox 2.0 1.0
    ∧ ∃ g, build? ⟨1.0, 0.0⟩ twoPoints oneBox 2.0 1.0 = some g
      ∧ g.IsRaster ⟨1.0, 0.0⟩ twoPoints oneBox 2.0
  := by
  have hbuilt : (build? ⟨1.0, 0.0⟩ twoPoints oneBox 2.0 1.0).isSome = true := by
    decide +kernel
  obtain ⟨g, hg⟩ := Option.isSome_iff_exists.mp hbuilt
  have hmem : ⟨1.0, 0.0⟩ ∈ twoPoints := List.mem_cons_self
  exact ⟨hmem, isModestPlan_oneBox, g, hg, isRaster_of_build? hg hmem isModestPlan_oneBox⟩

end Grid

end DiagramLayout
