import DiagramLayout.Proofs.Plane.Place
import DiagramLayout.Proofs.Route.Axis
import DiagramLayout.Proofs.Route.Labels

/-!
# Lattices over whole numbers

A lattice that is laid over points and rectangles with whole coordinates has whole vertices. One of
them is the origin, and all the points that it is laid over stand between its first and its last
vertex.
-/

namespace DiagramLayout

open Single

/-! ### Extents -/

theorem isWhole_largest :
  IsWhole largest ((2 ^ 24 - 1) * 2 ^ 104)
  := by
  have hunpack : largest.toModel.unpack
      = .finite .positive (2 ^ 24 - 1) 104 (by norm_num) := by rfl
  have hc : IsCanonical (2 ^ 24 - 1) 104 := ⟨by norm_num, by norm_num, Or.inr (by norm_num)⟩
  constructor
  · rw [IsRational, hunpack]
    apply IsFinite.finite _ _ hc le_rfl
  · rw [value, hunpack, exactValue_finite, signed]
    norm_num

/-- The ends of an interval that reaches around all integers of `zs`, themselves whole and no farther out
than `a` and `b`. -/
structure Reaches (a b : ℤ) (low high : Float32) (zs : Set ℤ) : Prop where
  low : ∃ k, IsWhole low k ∧ a ≤ k ∧ ∀ z ∈ zs, k ≤ z
  high : ∃ k, IsWhole high k ∧ k ≤ b ∧ ∀ z ∈ zs, z ≤ k

namespace Reaches

variable {low high x y : Float32} {zs : Set ℤ} {a b m n : ℤ}

/-- The empty extent reaches around nothing. -/
theorem empty (ha : a ≤ 0) (hb : 0 ≤ b) :
  Reaches a b largest (-largest) ∅
  := by
  constructor
  · exact ⟨_, isWhole_largest, ha.trans (by norm_num), by simp⟩
  · exact ⟨_, isWhole_largest.neg, le_trans (by norm_num) hb, by simp⟩

/-- An interval that is grown reaches around what it is grown by. -/
theorem grow (h : Reaches a b low high zs) (hx : IsWhole x m) (hy : IsWhole y n) (hm : a ≤ m)
    (hn : n ≤ b) :
  Reaches a b (lesser low x) (greater high y) (zs ∪ Set.Icc m n)
  := by
  obtain ⟨⟨k, hk, hka, hkle⟩, ⟨l, hl, hlb, hlge⟩⟩ := h
  constructor
  · refine ⟨min k m, hk.lesser hx, le_min hka hm, ?_⟩
    rintro z (hz | hz)
    · apply (min_le_left k m).trans (hkle z hz)
    · apply (min_le_right k m).trans hz.1
  · refine ⟨max l n, hl.greater hy, max_le hlb hn, ?_⟩
    rintro z (hz | hz)
    · apply (hlge z hz).trans (le_max_left l n)
    · apply hz.2.trans (le_max_right l n)

theorem mono {zs' : Set ℤ} (h : Reaches a b low high zs) (hsub : zs' ⊆ zs) :
  Reaches a b low high zs'
  := by
  obtain ⟨⟨k, hk, hka, hkle⟩, ⟨l, hl, hlb, hlge⟩⟩ := h
  constructor
  · exact ⟨k, hk, hka, fun z hz => hkle z (hsub hz)⟩
  · exact ⟨l, hl, hlb, fun z hz => hlge z (hsub hz)⟩

/-- The axis laid through a point of the interval, with a margin around it, reaches around all
points of the interval. -/
theorem exists_isAxis (h : Reaches a b low high zs) {origin start pitch margin : Float32} {count : ℕ}
    {o c d : ℤ} (hstart : start = Lattice.axisStart origin (low - margin) pitch)
    (hcount : count = (Single.toInt32 (Lattice.axisCount start (high + margin) pitch)).toNat)
    (horigin : IsWhole origin o) (ho : o ∈ zs) (hpitch : IsWhole pitch c) (hc : 0 < c)
    (hc' : c ≤ 1000000) (hmargin : IsWhole margin d) (hd : 0 ≤ d) (ha : -3000000 ≤ a - d)
    (hb : b + d ≤ 4000000) :
  ∃ (s : ℤ) (i : ℕ), IsAxis start pitch count s c ∧ i < count ∧ o = s + i * c
    ∧ ∀ z ∈ zs, s ≤ z ∧ z ≤ s + (count - 1) * c
  := by
  obtain ⟨⟨k, hk, hka, hkle⟩, ⟨l, hl, hlb, hlge⟩⟩ := h
  have hko := hkle o ho
  have hol := hlge o ho
  have hlow : IsWhole (low - margin) (k - d) := by
    apply hk.sub hmargin
    rw [abs_le]
    omega
  have hhigh : IsWhole (high + margin) (l + d) := by
    apply hl.add hmargin
    rw [abs_le]
    omega
  obtain ⟨s, i, haxis, hi, heq, hs, hend⟩ := DiagramLayout.exists_isAxis hstart hcount horigin hlow
    hhigh hpitch hc hc' (by omega) (by omega) (by omega) (by omega)
  refine ⟨s, i, haxis, hi, heq, ?_⟩
  intro z hz
  have hkz := hkle z hz
  have hzl := hlge z hz
  constructor
  · linarith
  · linarith

end Reaches

namespace Extent

/-- The extent reaches around columns `xs` and rows `ys`. -/
structure Frames (e : Extent) (a b : ℤ) (xs ys : Set ℤ) : Prop where
  cols : Reaches a b e.minX e.maxX xs
  rows : Reaches a b e.minY e.maxY ys

variable {e : Extent} {a b : ℤ} {xs ys : Set ℤ}

theorem union_cons_subset {f : Point → Float32} {zs : Set ℤ} {p : Point} {rest : List Point} {m : ℤ}
    (hm : IsWhole (f p) m) :
  zs ∪ {k | ∃ q ∈ p :: rest, IsWhole (f q) k} ⊆
    zs ∪ Set.Icc m m ∪ {k | ∃ q ∈ rest, IsWhole (f q) k}
  := by
  rintro k (hk | ⟨q, hq, hk⟩)
  · exact Or.inl (Or.inl hk)
  · rcases List.mem_cons.mp hq with rfl | hq
    · obtain rfl := hk.unique hm
      exact Or.inl (Or.inr ⟨le_rfl, le_rfl⟩)
    · exact Or.inr ⟨q, hq, hk⟩

/-- An extent that is grown by points reaches around each of them. -/
theorem Frames.points (he : e.Frames a b xs ys) {points : List Point}
    (h : ∀ p ∈ points, ∃ m n, p.IsAt m n ∧ (a ≤ m ∧ m ≤ b) ∧ a ≤ n ∧ n ≤ b) :
  (points.foldl (fun e p => e.reach p.x p.y p.x p.y) e).Frames a b
    (xs ∪ {m | ∃ p ∈ points, IsWhole p.x m}) (ys ∪ {n | ∃ p ∈ points, IsWhole p.y n})
  := by
  induction points generalizing e xs ys with
  | nil => simpa using he
  | cons p rest ih =>
    obtain ⟨m, n, ⟨hm, hn⟩, hm', hn'⟩ := h p List.mem_cons_self
    have hgrown : (e.reach p.x p.y p.x p.y).Frames a b (xs ∪ Set.Icc m m) (ys ∪ Set.Icc n n) := by
      constructor
      · apply he.cols.grow hm hm hm'.1 hm'.2
      · apply he.rows.grow hn hn hn'.1 hn'.2
    have hrest := ih hgrown fun q hq => h q (List.mem_cons_of_mem p hq)
    constructor
    · apply hrest.cols.mono (union_cons_subset hm)
    · apply hrest.rows.mono (union_cons_subset hn)

/-- An extent that is grown by rectangles still reaches around what it reached around. -/
theorem Frames.rects (he : e.Frames a b xs ys) {rects : List Rect}
    (h : ∀ r ∈ rects, ∃ m n m' n', r.Spans m n m' n' ∧ (a ≤ m ∧ n ≤ b) ∧ a ≤ m' ∧ n' ≤ b) :
  (rects.foldl (fun e r => e.reach r.x r.y r.right r.bottom) e).Frames a b xs ys
  := by
  induction rects generalizing e with
  | nil => apply he
  | cons r rest ih =>
    obtain ⟨m, n, m', n', hspans, hcols, hrows⟩ := h r List.mem_cons_self
    apply ih _ fun r hr => h r (List.mem_cons_of_mem _ hr)
    constructor
    · apply (he.cols.grow hspans.left hspans.right hcols.1 hcols.2).mono Set.subset_union_left
    · apply (he.rows.grow hspans.top hspans.bottom hrows.1 hrows.2).mono Set.subset_union_left

/-- The extent of points and rectangles reaches around each of the points. -/
theorem frames_of (ha : a ≤ 0) (hb : 0 ≤ b) {points : List Point} {rects : List Rect}
    (hpoints : ∀ p ∈ points, ∃ m n, p.IsAt m n ∧ (a ≤ m ∧ m ≤ b) ∧ a ≤ n ∧ n ≤ b)
    (hrects : ∀ r ∈ rects, ∃ m n m' n', r.Spans m n m' n' ∧ (a ≤ m ∧ n ≤ b) ∧ a ≤ m' ∧ n' ≤ b) :
  (Extent.of points rects).Frames a b (∅ ∪ {m | ∃ p ∈ points, IsWhole p.x m})
    (∅ ∪ {n | ∃ p ∈ points, IsWhole p.y n})
  := by
  apply Frames.rects _ hrects
  apply Frames.points ⟨Reaches.empty ha hb, Reaches.empty ha hb⟩ hpoints

end Extent

/-- A rectangle that ends within the reach of exact arithmetic. -/
def Rect.IsConfined (r : Rect) : Prop :=
  ∃ a b a' b', r.Spans a b a' b' ∧ (-2000000 ≤ a ∧ b ≤ 3000000) ∧ -2000000 ≤ a' ∧ b' ≤ 3000000

/-! ### Lattices -/

namespace Lattice

/-- The lattice has the integers `s` and `t` as coordinates of its corner and the pitch `c`. -/
structure IsExact (l : Lattice) (s t c : ℤ) : Prop where
  cols : IsAxis l.corner.x l.pitch l.cols s c
  rows : IsAxis l.corner.y l.pitch l.rows t c

/-- The integers `m` and `n` lie between the first and the last vertex along both axes. -/
def Surrounds (l : Lattice) (s t c m n : ℤ) : Prop :=
  (s ≤ m ∧ m ≤ s + (l.cols - 1) * c) ∧ t ≤ n ∧ n ≤ t + (l.rows - 1) * c

variable {l : Lattice} {s t c m n : ℤ} {cell : Cell} {p : Point}

/-- The vertices of an exact lattice are at multiples of the pitch from its corner. -/
theorem IsExact.vertex (h : l.IsExact s t c) (hcell : l.inBounds cell = true) :
  (l.vertex cell).IsAt (s + cell.col * c) (t + cell.row * c)
  := by
  obtain ⟨hcol, hrow⟩ := inBounds_iff.mp hcell
  constructor
  · apply h.cols.vertex hcol
  · apply h.rows.vertex hrow

/-- The vertices of an exact lattice are within reach. -/
theorem IsExact.vertex_bounds (h : l.IsExact s t c) (hcell : l.inBounds cell = true) :
  |s + cell.col * c| ≤ 5000000 ∧ |t + cell.row * c| ≤ 5000000
  := by
  obtain ⟨hcol, hrow⟩ := inBounds_iff.mp hcell
  have hs := h.cols.low
  have ht := h.rows.low
  have hx := h.cols.mul_bounds hcol
  have hy := h.rows.mul_bounds hrow
  rw [abs_le, abs_le]
  omega

/-- The cell nearest to a point within the lattice is at most half a pitch away along both axes. -/
theorem IsExact.nearestCell (h : l.IsExact s t c) (hp : p.IsAt m n) (hm : |m| ≤ 3000000)
    (hn : |n| ≤ 3000000) (hin : l.Surrounds s t c m n) :
  l.inBounds (l.nearestCell p) = true
    ∧ 2 * |m - (s + (l.nearestCell p).col * c)| ≤ c
    ∧ 2 * |n - (t + (l.nearestCell p).row * c)| ≤ c
  := by
  obtain ⟨hcols, hrows⟩ := hin
  obtain ⟨hcol, hx⟩ := h.cols.nearestOnAxis hp.x hm hcols.1 hcols.2
  obtain ⟨hrow, hy⟩ := h.rows.nearestOnAxis hp.y hn hrows.1 hrows.2
  exact ⟨inBounds_iff.mpr ⟨hcol, hrow⟩, hx, hy⟩

/-- The pitch, the corner and the size of the lattice that covers points and rectangles. -/
theorem cover?_eq_some {origin : Point} {points : List Point} {rects : List Rect}
    {gridSize margin : Float32} (h : cover? origin points rects gridSize margin = some l) :
  l.pitch = greater gridSize 1.0
    ∧ l.corner.x = axisStart origin.x ((Extent.of points rects).minX - margin) l.pitch
    ∧ l.corner.y = axisStart origin.y ((Extent.of points rects).minY - margin) l.pitch
    ∧ l.cols = (toInt32
        (axisCount l.corner.x ((Extent.of points rects).maxX + margin) l.pitch)).toNat
    ∧ l.rows = (toInt32
        (axisCount l.corner.y ((Extent.of points rects).maxY + margin) l.pitch)).toNat
  := by
  simp only [cover?, Option.ite_none_right_eq_some, Option.some.injEq] at h
  obtain ⟨-, -, rfl⟩ := h
  exact ⟨rfl, rfl, rfl, rfl, rfl⟩

/-- A lattice laid over points and rectangles within bounds is exact. The origin stands on one of its
vertices, and all points are surrounded. -/
theorem exists_isExact_of_bounds {origin : Point} {points : List Point} {rects : List Rect}
    {gridSize margin : Float32} {a b d o o' : ℤ}
    (h : cover? origin points rects gridSize margin = some l) (hgrid : IsWhole gridSize c)
    (hc : 1 ≤ c) (hc' : c ≤ 1000000) (hmargin : IsWhole margin d) (hd : 0 ≤ d) (ha : a ≤ 0)
    (ha' : -3000000 ≤ a - d) (hb : 0 ≤ b) (hb' : b + d ≤ 4000000) (horigin : origin.IsAt o o')
    (hmem : origin ∈ points)
    (hpoints : ∀ p ∈ points, ∃ m n, p.IsAt m n ∧ (a ≤ m ∧ m ≤ b) ∧ a ≤ n ∧ n ≤ b)
    (hrects : ∀ r ∈ rects, ∃ m n m' n', r.Spans m n m' n' ∧ (a ≤ m ∧ n ≤ b) ∧ a ≤ m' ∧ n' ≤ b) :
  ∃ s t, l.IsExact s t c ∧ (∃ i < l.cols, o = s + i * c) ∧ (∃ j < l.rows, o' = t + j * c)
    ∧ ∀ p ∈ points, ∀ m n, p.IsAt m n → l.Surrounds s t c m n
  := by
  obtain ⟨hpitch, hx, hy, hcols, hrows⟩ := cover?_eq_some h
  have hframes := Extent.frames_of ha hb hpoints hrects
  have hwhole : IsWhole l.pitch c := by
    have hmax := hgrid.greater isWhole_one
    rwa [max_eq_left hc, ← hpitch] at hmax
  obtain ⟨s, i, hxaxis, hi, hcol, hxin⟩ := hframes.cols.exists_isAxis hx hcols horigin.x
    (Or.inr ⟨origin, hmem, horigin.x⟩) hwhole (by omega) hc' hmargin hd ha' hb'
  obtain ⟨t, j, hyaxis, hj, hrow, hyin⟩ := hframes.rows.exists_isAxis hy hrows horigin.y
    (Or.inr ⟨origin, hmem, horigin.y⟩) hwhole (by omega) hc' hmargin hd ha' hb'
  refine ⟨s, t, ⟨hxaxis, hyaxis⟩, ⟨i, hi, hcol⟩, ⟨j, hj, hrow⟩, ?_⟩
  intro p hp m n hmn
  use hxin m (Or.inr ⟨p, hp, hmn.x⟩)
  apply hyin n (Or.inr ⟨p, hp, hmn.y⟩)

/-- A lattice laid over modest points and rectangles is exact. The origin stands on the cell nearest
to it, and all points are surrounded. -/
theorem exists_isExact {origin : Point} {points : List Point} {rects : List Rect}
    {gridSize margin : Float32} {d o o' : ℤ}
    (h : cover? origin points rects gridSize margin = some l) (hgrid : IsWhole gridSize c)
    (hc : 1 ≤ c) (hc' : c ≤ 1000000) (hmargin : IsWhole margin d) (hd : 0 ≤ d) (hd' : d ≤ 1000000)
    (horigin : origin.IsAt o o') (hmem : origin ∈ points)
    (hpoints : ∀ p ∈ points, ∃ m n, p.IsAt m n ∧ |m| ≤ 2000000 ∧ |n| ≤ 2000000)
    (hrects : ∀ r ∈ rects, r.IsConfined) :
  ∃ s t, l.IsExact s t c
    ∧ origin.IsAt (s + (l.nearestCell origin).col * c) (t + (l.nearestCell origin).row * c)
    ∧ ∀ p ∈ points, ∀ m n, p.IsAt m n → l.Surrounds s t c m n
  := by
  have hbetween : ∀ p ∈ points, ∃ m n, p.IsAt m n ∧ (-2000000 ≤ m ∧ m ≤ 3000000)
      ∧ -2000000 ≤ n ∧ n ≤ 3000000 := by
    intro p hp
    obtain ⟨m, n, hmn, hm, hn⟩ := hpoints p hp
    rw [abs_le] at hm hn
    exact ⟨m, n, hmn, by omega, by omega⟩
  obtain ⟨s, t, hl, ⟨i, hi, rfl⟩, ⟨j, hj, rfl⟩, hin⟩ := exists_isExact_of_bounds h hgrid hc hc' hmargin
    hd (by norm_num) (by omega) (by norm_num) (by omega) horigin hmem hbetween hrects
  have hbounds : |s + i * c| ≤ 3000000 ∧ |t + j * c| ≤ 3000000 := by
    obtain ⟨m, n, ⟨hm, hn⟩, hm', hn'⟩ := hpoints origin hmem
    rw [horigin.x.unique hm, horigin.y.unique hn]
    omega
  have hcol : (l.nearestCell origin).col = i := hl.cols.nearestOnAxis_vertex hi horigin.x hbounds.1
  have hrow : (l.nearestCell origin).row = j := hl.rows.nearestOnAxis_vertex hj horigin.y hbounds.2
  refine ⟨s, t, hl, ?_, hin⟩
  rw [hcol, hrow]
  apply horigin

end Lattice

end DiagramLayout
