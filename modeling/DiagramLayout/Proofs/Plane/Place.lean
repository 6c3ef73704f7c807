import DiagramLayout.Plane.Anchor
import DiagramLayout.Proofs.Single.Whole

/-!
# Places in the plane

Points and rectangles with whole coordinates stand in the plane without error, so that the tests for
closeness and containment decide what they say. A leg along a row or a column keeps out of a
rectangle if its ends stay away from the rectangle and the leg is not longer than this distance
allows.
-/

namespace DiagramLayout

open Single

/-- The point with the integers `m` and `n` as coordinates. -/
structure Point.IsAt (p : Point) (m n : ℤ) : Prop where
  x : IsWhole p.x m
  y : IsWhole p.y n

/-- The rectangle with the integers `a` and `b` as left and right ends and `a'` and `b'` as upper
and lower ends. -/
structure Rect.Spans (r : Rect) (a b a' b' : ℤ) : Prop where
  left : IsWhole r.x a
  right : IsWhole r.right b
  top : IsWhole r.y a'
  bottom : IsWhole r.bottom b'

/-- On whole coordinates a rectangle contains the points between its bounds. -/
theorem Rect.Spans.contains_iff {r : Rect} {p : Point} {a b a' b' m n : ℤ} (hr : r.Spans a b a' b')
    (hp : p.IsAt m n) :
  r.contains p = true ↔ (a ≤ m ∧ m ≤ b) ∧ a' ≤ n ∧ n ≤ b'
  := by
  simp only [Rect.contains, Bool.and_eq_true, decide_eq_true_eq, hr.left.le_iff hp.x,
    hp.x.le_iff hr.right, hr.top.le_iff hp.y, hp.y.le_iff hr.bottom]
  tauto

/-- A normal is a unit step along one of the axes, or no step. -/
theorem Side.isWhole_normal (side : Side) :
  ∃ i j : ℤ, IsWhole side.normal.x i ∧ IsWhole side.normal.y j ∧ |i| ≤ 1 ∧ |j| ≤ 1
    ∧ (i = 0 ∨ j = 0)
  := by
  cases side with
  | top => exact ⟨0, -1, isWhole_zero, isWhole_one.neg, by norm_num, by norm_num, Or.inl rfl⟩
  | right => exact ⟨1, 0, isWhole_one, isWhole_zero, by norm_num, by norm_num, Or.inr rfl⟩
  | bottom => exact ⟨0, 1, isWhole_zero, isWhole_one, by norm_num, by norm_num, Or.inl rfl⟩
  | left => exact ⟨-1, 0, isWhole_one.neg, isWhole_zero, by norm_num, by norm_num, Or.inr rfl⟩

/-- Where a point stands in the plane. -/
noncomputable def Point.place (p : Point) : ℝ × ℝ :=
  (value p.x, value p.y)

/-- The places inside a rectangle, without its border. -/
def Rect.interior (r : Rect) : Set (ℝ × ℝ) :=
  Set.Ioo (value r.x : ℝ) (value r.x + value r.width)
    ×ˢ Set.Ioo (value r.y : ℝ) (value r.y + value r.height)

theorem Point.IsAt.place_eq {p : Point} {m n : ℤ} (h : p.IsAt m n) :
  p.place = ((m : ℝ), (n : ℝ))
  := by
  rw [Point.place, h.x.value_eq, h.y.value_eq, Rat.cast_intCast, Rat.cast_intCast]

/-! ### Closeness -/

/-- The tolerance, as the fraction it is rounded to. -/
theorem value_tolerance_eq :
  value Point.tolerance = 13743895 / 2 ^ 37
  := by
  have hunpack : Point.tolerance.toModel.unpack
      = .finite .positive 13743895 (-37) (by norm_num) := by rfl
  rw [value, hunpack, exactValue_finite, signed]
  norm_num

/-- The tolerance is positive and less than one, so it tells whole numbers apart. -/
theorem value_tolerance :
  IsNumber Point.tolerance ∧ 0 < value Point.tolerance ∧ value Point.tolerance < 1
  := by
  rw [value_tolerance_eq]
  exact ⟨by rfl, by norm_num, by norm_num⟩

/-- The point has whole coordinates that are small enough for exact differences. -/
def Point.IsExact (p : Point) : Prop :=
  ∃ m n, p.IsAt m n ∧ |m| ≤ 5000000 ∧ |n| ≤ 5000000

section Tolerance

variable {x y : Float32} {m n : ℤ}

/-- The distance of two whole coordinates is computed exactly. -/
theorem isWhole_abs_sub (hx : IsWhole x m) (hy : IsWhole y n) (hm : |m| ≤ 5000000)
    (hn : |n| ≤ 5000000) :
  IsWhole (x - y).abs |m - n|
  := by
  apply IsWhole.abs
  apply hx.sub hy
  rw [abs_le] at hm hn ⊢
  omega

/-- Whole coordinates are within the tolerance only when they are equal. -/
theorem abs_sub_le_tolerance (hx : IsWhole x m) (hy : IsWhole y n) (hm : |m| ≤ 5000000)
    (hn : |n| ≤ 5000000) :
  (x - y).abs ≤ Point.tolerance ↔ m = n
  := by
  have hwhole := isWhole_abs_sub hx hy hm hn
  obtain ⟨hnumber, hpos, hlt⟩ := value_tolerance
  rw [le_iff, hwhole.value_eq]
  constructor
  · intro h
    have hone : |m - n| < 1 := by exact_mod_cast h.2.2.trans_lt hlt
    rw [Int.abs_lt_one_iff] at hone
    omega
  · rintro rfl
    refine ⟨hwhole.isNumber, hnumber, ?_⟩
    rw [sub_self, abs_zero, Int.cast_zero]
    apply hpos.le

theorem tolerance_lt_abs_sub (hx : IsWhole x m) (hy : IsWhole y n) (hm : |m| ≤ 5000000)
    (hn : |n| ≤ 5000000) :
  Point.tolerance < (x - y).abs ↔ m ≠ n
  := by
  have hle := abs_sub_le_tolerance hx hy hm hn
  have hwhole := isWhole_abs_sub hx hy hm hn
  rw [← not_iff_not, not_not, ← hle]
  constructor
  · intro h
    by_contra hless
    apply h
    apply lt_of_not_le hwhole.isNumber value_tolerance.1 hless
  · intro h hlt
    apply absurd (lt_iff.mp hlt).2.2 (le_iff.mp h).2.2.not_gt

end Tolerance

/-! ### Segments along an axis -/

/-- A horizontal segment holds the points of its row between its ends. -/
theorem mem_segment_row {x₁ x₂ y : ℝ} {z : ℝ × ℝ} :
  z ∈ segment ℝ (x₁, y) (x₂, y) ↔ z.1 ∈ Set.uIcc x₁ x₂ ∧ z.2 = y
  := by
  rw [← Prod.image_mk_segment_left, segment_eq_uIcc]
  constructor
  · rintro ⟨x, hx, rfl⟩
    exact ⟨hx, rfl⟩
  · rintro ⟨hx, rfl⟩
    exact ⟨z.1, hx, rfl⟩

/-- A vertical segment holds the points of its column between its ends. -/
theorem mem_segment_col {x y₁ y₂ : ℝ} {z : ℝ × ℝ} :
  z ∈ segment ℝ (x, y₁) (x, y₂) ↔ z.2 ∈ Set.uIcc y₁ y₂ ∧ z.1 = x
  := by
  rw [← Prod.image_mk_segment_right, segment_eq_uIcc]
  constructor
  · rintro ⟨y, hy, rfl⟩
    exact ⟨hy, rfl⟩
  · rintro ⟨hy, rfl⟩
    exact ⟨z.2, hy, rfl⟩

/-- A straight run is covered by its two pieces. -/
theorem segment_subset_union {z₁ z₂ z₃ : ℝ × ℝ}
    (h : z₁.1 = z₂.1 ∧ z₂.1 = z₃.1 ∨ z₁.2 = z₂.2 ∧ z₂.2 = z₃.2) :
  segment ℝ z₁ z₃ ⊆ segment ℝ z₁ z₂ ∪ segment ℝ z₂ z₃
  := by
  obtain ⟨x₁, y₁⟩ := z₁
  obtain ⟨x₂, y₂⟩ := z₂
  obtain ⟨x₃, y₃⟩ := z₃
  intro z hz
  rw [Set.mem_union]
  rcases h with ⟨rfl, rfl⟩ | ⟨rfl, rfl⟩
  · rw [mem_segment_col] at hz ⊢
    rw [mem_segment_col]
    rcases Set.uIcc_subset_uIcc_union_uIcc (b := y₂) hz.1 with h | h
    · exact Or.inl ⟨h, hz.2⟩
    · exact Or.inr ⟨h, hz.2⟩
  · rw [mem_segment_row] at hz ⊢
    rw [mem_segment_row]
    rcases Set.uIcc_subset_uIcc_union_uIcc (b := x₂) hz.1 with h | h
    · exact Or.inl ⟨h, hz.2⟩
    · exact Or.inr ⟨h, hz.2⟩

/-- The place with the coordinates `x` and `y` is more than `d` away from the rectangle with the ends
`a` and `b` and `a'` and `b'`, along one of the axes. -/
def IsBeyond (d a b a' b' x y : ℝ) : Prop :=
  (x < a - d ∨ b + d < x) ∨ y < a' - d ∨ b' + d < y

theorem IsBeyond.swap {d a b a' b' x y : ℝ} (h : IsBeyond d a b a' b' x y) :
  IsBeyond d a' b' a b y x
  := by
  apply Or.symm h

/-- No place of a leg along an axis lies inside a rectangle, when the leg starts at a place that is
away from the rectangle, turns and leads to another such place, and is at most twice as long as this
distance; one of the two legs is no longer than the distance. -/
theorem not_mem_Ioo_of_isBeyond {d a b a' b' x₁ y₁ x₂ y₂ t : ℝ} (hd : 0 ≤ d)
    (h₁ : IsBeyond d a b a' b' x₁ y₁) (h₂ : IsBeyond d a b a' b' x₂ y₂) (hx : |x₁ - x₂| ≤ 2 * d)
    (hxy : |x₁ - x₂| ≤ d ∨ |y₁ - y₂| ≤ d) (ht : t ∈ Set.uIcc x₁ x₂) (htab : t ∈ Set.Ioo a b) :
  y₁ ∉ Set.Ioo a' b'
  := by
  intro hy
  obtain ⟨hat, htb⟩ := htab
  obtain ⟨hay, hyb⟩ := hy
  rw [abs_le] at hx
  -- The start is away from the rectangle along the leg.
  have hstart : x₁ < a - d ∨ b + d < x₁ := by
    apply h₁.resolve_right
    rintro (h | h)
    · linarith
    · linarith
  -- So the leg is longer than `d`, the other one is not, and the end is on the far side.
  rw [Set.mem_uIcc] at ht
  have hlong : ¬|x₁ - x₂| ≤ d := by
    rw [abs_le]
    rintro ⟨hlow, hhigh⟩
    rcases hstart with h | h
    · rcases ht with ht | ht
      · linarith
      · linarith
    · rcases ht with ht | ht
      · linarith
      · linarith
  have hshort := abs_le.mp (hxy.resolve_left hlong)
  have hend : x₂ < a - d ∨ b + d < x₂ := by
    apply h₂.resolve_right
    rintro (h | h)
    · linarith
    · linarith
  rcases hstart with h | h
  · rcases hend with h' | h'
    · rcases ht with ht | ht
      · linarith
      · linarith
    · linarith
  · rcases hend with h' | h'
    · linarith
    · rcases ht with ht | ht
      · linarith
      · linarith

section Legs

variable {d a b a' b' x₁ y₁ x₂ y₂ : ℝ}

/-- The horizontal leg from one place away from a rectangle to the column of another misses the
inside of the rectangle, when it is at most twice as long as they are away. -/
theorem disjoint_row (hd : 0 ≤ d) (h₁ : IsBeyond d a b a' b' x₁ y₁)
    (h₂ : IsBeyond d a b a' b' x₂ y₂) (hx : |x₁ - x₂| ≤ 2 * d)
    (hxy : |x₁ - x₂| ≤ d ∨ |y₁ - y₂| ≤ d) :
  Disjoint (segment ℝ (x₁, y₁) (x₂, y₁)) (Set.Ioo a b ×ˢ Set.Ioo a' b')
  := by
  apply Set.disjoint_left.mpr
  rintro z hz ⟨hz₁, hz₂⟩
  obtain ⟨ht, hy⟩ := mem_segment_row.mp hz
  rw [hy] at hz₂
  apply not_mem_Ioo_of_isBeyond hd h₁ h₂ hx hxy ht hz₁ hz₂

/-- The vertical leg from one place away from a rectangle to the row of another misses the inside of
the rectangle, when it is at most twice as long as they are away. -/
theorem disjoint_col (hd : 0 ≤ d) (h₁ : IsBeyond d a b a' b' x₁ y₁)
    (h₂ : IsBeyond d a b a' b' x₂ y₂) (hy : |y₁ - y₂| ≤ 2 * d)
    (hxy : |x₁ - x₂| ≤ d ∨ |y₁ - y₂| ≤ d) :
  Disjoint (segment ℝ (x₁, y₁) (x₁, y₂)) (Set.Ioo a b ×ˢ Set.Ioo a' b')
  := by
  apply Set.disjoint_left.mpr
  rintro z hz ⟨hz₁, hz₂⟩
  obtain ⟨ht, hx⟩ := mem_segment_col.mp hz
  rw [hx] at hz₁
  apply not_mem_Ioo_of_isBeyond hd h₁.swap h₂.swap hy hxy.symm ht hz₂ hz₁

end Legs

/-! ### Rectangles with room around them -/

/-- The rectangle with the integers `a` and `b` as coordinates of its corner, `w` as width and `h` as
height. -/
structure Rect.IsAt (r : Rect) (a b w h : ℤ) : Prop where
  x : IsWhole r.x a
  y : IsWhole r.y b
  width : IsWhole r.width w
  height : IsWhole r.height h

section Padding

variable {r : Rect} {p : Point} {padding : Float32} {a b w h d m n : ℤ}

/-- The inside of a rectangle on whole coordinates is a product of open intervals. -/
theorem Rect.IsAt.interior_eq (hr : r.IsAt a b w h) :
  r.interior = Set.Ioo (a : ℝ) (a + w) ×ˢ Set.Ioo (b : ℝ) (b + h)
  := by
  simp only [Rect.interior, hr.x.value_eq, hr.y.value_eq, hr.width.value_eq, hr.height.value_eq,
    Rat.cast_intCast]

/-- Both bounds of an inflated rectangle along one axis are computed exactly. -/
theorem isWhole_inflate {x y : Float32} (hx : IsWhole x a) (hy : IsWhole y w)
    (hd : IsWhole padding d) (ha : |a| ≤ 5000000) (hw : |w| ≤ 1000000) (hd' : |d| ≤ 1000000) :
  IsWhole (x - padding) (a - d)
    ∧ IsWhole (x - padding + (y + padding * 2.0)) (a + w + d)
  := by
  rw [abs_le] at ha hw hd'
  have hlow : IsWhole (x - padding) (a - d) := by
    apply hx.sub hd
    rw [abs_le]
    omega
  have hdouble : IsWhole (padding * 2.0) (d * 2) := by
    apply hd.mul isWhole_two
    rw [abs_le]
    omega
  have hsize : IsWhole (y + padding * 2.0) (w + d * 2) := by
    apply hy.add hdouble
    rw [abs_le]
    omega
  have hhigh : IsWhole (x - padding + (y + padding * 2.0)) (a - d + (w + d * 2)) := by
    apply hlow.add hsize
    rw [abs_le]
    omega
  rw [show a + w + d = a - d + (w + d * 2) by ring]
  exact ⟨hlow, hhigh⟩

/-- An inflated rectangle on whole coordinates spans the old one and the padding around it. -/
theorem Rect.IsAt.inflate (hr : r.IsAt a b w h) (hd : IsWhole padding d) (ha : |a| ≤ 5000000)
    (hb : |b| ≤ 5000000) (hw : |w| ≤ 1000000) (hh : |h| ≤ 1000000) (hd' : |d| ≤ 1000000) :
  (r.inflate padding).Spans (a - d) (a + w + d) (b - d) (b + h + d)
  := by
  obtain ⟨hleft, hright⟩ := isWhole_inflate hr.x hr.width hd ha hw hd'
  obtain ⟨htop, hbottom⟩ := isWhole_inflate hr.y hr.height hd hb hh hd'
  exact ⟨hleft, hright, htop, hbottom⟩

/-- A point outside a grown rectangle is away from the rectangle itself. -/
theorem isBeyond_of_not_contains
    (hr : (r.inflate padding).Spans (a - d) (a + w + d) (b - d) (b + h + d)) (hp : p.IsAt m n)
    (hout : (r.inflate padding).contains p = false) :
  IsBeyond d a (a + w) b (b + h) m n
  := by
  have hnot : ¬((a - d ≤ m ∧ m ≤ a + w + d) ∧ b - d ≤ n ∧ n ≤ b + h + d) := by
    rw [← hr.contains_iff hp, hout]
    exact Bool.false_ne_true
  have hcases : (m < a - d ∨ a + w + d < m) ∨ n < b - d ∨ b + h + d < n := by omega
  rw [IsBeyond]
  exact_mod_cast hcases

end Padding

end DiagramLayout
