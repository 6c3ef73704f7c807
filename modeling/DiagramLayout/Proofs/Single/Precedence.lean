import DiagramLayout.Proofs.Single.Value

/-!
# The total order of numbers

In the total order what is not a number comes first, since arithmetic makes it with its sign set; numbers
stand in the order of their values, and negative zero stands before zero. `rank` turns this order into that
of integers.
-/

namespace DiagramLayout.Single

open Float.Model (UnpackedFloat)
open Float.Model.UnpackedFloat

variable {x y : Float32} {s t : Sign}

/-- `x` stands before `y` in the total order: it is not a number and `y` is one, or it is less than `y`,
or both are zero and only `x` has a sign. -/
def Precedes (x y : Float32) : Prop :=
  x.isNaN = true ∧ y.isNaN = false ∨ x < y ∨ x = -0.0 ∧ y = 0.0

/-- Every number has a sign. -/
theorem IsNumber.exists_hasSign (h : IsNumber x) :
  ∃ s, HasSign s x.toModel.unpack
  := by
  have hordered := h.isOrdered
  generalize x.toModel.unpack = u at hordered
  cases hordered with
  | infinity s => exact ⟨s, .infinity⟩
  | finite hu => cases hu with
    | zero s => exact ⟨s, .zero⟩
    | finite s hpos hc he => exact ⟨s, .finite hpos hc he⟩

/-- A number without value has nothing but its sign. -/
theorem HasSign.eq_zero {u : UnpackedFloat} (h : HasSign s u) (hu : exactValue u = 0) :
  u = .zero s
  := by
  have habs : |exactValue u| = 0 := abs_eq_zero.mpr hu
  cases h with
  | infinity =>
    rw [exactValue_infinity, abs_signed] at habs
    norm_num at habs
  | zero => rfl
  | @finite m e hpos hc he =>
    have hlt : (0 : ℚ) < m * 2 ^ e := by positivity
    rw [exactValue_finite, abs_signed, abs_of_pos hlt] at habs
    exact absurd habs hlt.ne'

theorem HasSign.sign_eq (h : HasSign s (.zero t)) :
  s = t
  := by
  cases h
  rfl

/-- The negative zero is the only value that unpacks to it. -/
theorem eq_neg_zero_iff :
  x = -0.0 ↔ x.toModel.unpack = .zero .negative
  := by
  have hzero : (-0.0 : Float32).toModel.unpack = .zero .negative := rfl
  constructor
  · rintro rfl
    exact hzero
  · intro hx
    exact eq_of_unpack (hx.trans hzero.symm)

/-- The positive zero is the only value that unpacks to it. -/
theorem eq_zero_iff :
  x = 0.0 ↔ x.toModel.unpack = .zero .positive
  := by
  have hzero : (0.0 : Float32).toModel.unpack = .zero .positive := rfl
  constructor
  · rintro rfl
    exact hzero
  · intro hx
    exact eq_of_unpack (hx.trans hzero.symm)

/-! ### Ranks of numbers -/

/-- Numbers with a sign are ranked by their values. -/
theorem rank_lt_iff_of_negative (hx : HasSign .negative x.toModel.unpack)
    (hy : HasSign .negative y.toModel.unpack) :
  rank x < rank y ↔ value x < value y
  := by
  have hx' : value x = -|value x| := hx.exactValue_eq
  have hy' : value y = -|value y| := hy.exactValue_eq
  have hplace : place y.toModel.unpack < place x.toModel.unpack ↔ |value y| < |value x| :=
    place_lt_iff hy hx
  rw [rank_eq_sub_place hx, rank_eq_sub_place hy, sub_lt_sub_iff_left, hplace, hx', hy',
    neg_lt_neg_iff, abs_neg, abs_neg, abs_abs, abs_abs]

/-- A number with a sign is ranked below those without one, and its value is not above theirs. -/
theorem rank_lt_of_signs (hx : HasSign .negative x.toModel.unpack)
    (hy : IsUnsigned y.toModel.unpack) :
  rank x < rank y ∧ value x ≤ 0 ∧ 0 ≤ value y
  := by
  have hx' : value x = -|value x| := hx.exactValue_eq
  have hy' : value y = |value y| := hy.exactValue_eq
  obtain ⟨hlow, -⟩ := place_bounds hx
  obtain ⟨hlow', -⟩ := place_bounds hy
  refine ⟨?_, ?_, ?_⟩
  · rw [rank_eq_sub_place hx, rank_eq_place hy]
    omega
  · rw [hx']
    exact neg_nonpos.mpr (abs_nonneg _)
  · rw [hy']
    exact abs_nonneg _

/-- Numbers are ranked by their values, and of two zeros the one with the sign comes first. -/
theorem IsNumber.rank_lt_iff (hx : IsNumber x) (hy : IsNumber y) :
  rank x < rank y ↔ x < y ∨ x = -0.0 ∧ y = 0.0
  := by
  obtain ⟨s, hs⟩ := hx.exists_hasSign
  obtain ⟨t, ht⟩ := hy.exists_hasSign
  have hlt : x < y ↔ value x < value y := by
    rw [lt_iff, and_iff_right hx, and_iff_right hy]
  have hsame : s = t → ¬(x = -0.0 ∧ y = 0.0) := by
    rintro rfl ⟨hx', hy'⟩
    rw [eq_neg_zero_iff.mp hx'] at hs
    rw [eq_zero_iff.mp hy'] at ht
    cases hs.sign_eq.symm.trans ht.sign_eq
  rw [hlt]
  cases s with
  | negative => cases t with
    | negative => rw [or_iff_left (hsame rfl), rank_lt_iff_of_negative hs ht]
    | positive =>
      obtain ⟨hrank, hnonpos, hnonneg⟩ := rank_lt_of_signs hs ht
      apply iff_of_true hrank
      rcases (hnonpos.trans hnonneg).lt_or_eq with hless | heq
      · exact Or.inl hless
      · right
        rw [eq_neg_zero_iff, eq_zero_iff]
        exact ⟨hs.eq_zero (hnonpos.antisymm (hnonneg.trans_eq heq.symm)),
          ht.eq_zero ((heq.symm.trans_le hnonpos).antisymm hnonneg)⟩
  | positive => cases t with
    | negative =>
      obtain ⟨hrank, hnonpos, hnonneg⟩ := rank_lt_of_signs ht hs
      apply iff_of_false hrank.not_gt
      rintro (hless | ⟨hx', -⟩)
      · exact (hnonpos.trans hnonneg).not_gt hless
      · rw [eq_neg_zero_iff.mp hx'] at hs
        cases hs.sign_eq
    | positive => rw [or_iff_left (hsame rfl), Single.rank_lt_iff hs ht]

/-- Every number ranks above the values that are no numbers. -/
theorem IsNumber.lt_rank (h : IsNumber x) :
  -0x80000001 < rank x
  := by
  obtain ⟨s, hs⟩ := h.exists_hasSign
  obtain ⟨hlow, hhigh⟩ := place_bounds hs
  cases s with
  | negative =>
    rw [rank_eq_sub_place hs]
    omega
  | positive =>
    rw [rank_eq_place hs]
    omega

/-! ### All ranks -/

/-- Only numbers have anything before them. -/
theorem Precedes.isNumber (h : Precedes x y) :
  IsNumber y
  := by
  rcases h with ⟨-, hnumber⟩ | hless | ⟨-, rfl⟩
  · exact hnumber
  · exact (lt_iff.mp hless).2.1
  · rfl

/-- The ranks stand in the total order. -/
theorem rank_lt_rank_iff :
  rank x < rank y ↔ Precedes x y
  := by
  have hrank : ∀ {z : Float32}, z.isNaN = true → rank z = -0x80000001 := by
    intro z hz
    rw [rank, hz, if_pos rfl]
  cases hy : y.isNaN with
  | true =>
    have hnot : ¬Precedes x y := by
      intro h
      have hnumber : y.isNaN = false := h.isNumber
      rw [hy] at hnumber
      contradiction
    apply iff_of_false _ hnot
    rw [hrank hy, not_lt]
    cases hx : x.isNaN with
    | true => exact (hrank hx).ge
    | false => exact (IsNumber.lt_rank hx).le
  | false => cases hx : x.isNaN with
    | true =>
      rw [hrank hx]
      exact iff_of_true (IsNumber.lt_rank hy) (Or.inl ⟨hx, hy⟩)
    | false =>
      have hnumber : ¬(x.isNaN = true ∧ y.isNaN = false) := by
        rw [hx]
        rintro ⟨hundefined, -⟩
        contradiction
      rw [IsNumber.rank_lt_iff hx hy, Precedes, or_iff_right hnumber]

/-- A rank is at most another one unless its number comes later in the total order. -/
theorem rank_le_rank_iff :
  rank x ≤ rank y ↔ ¬Precedes y x
  := by
  rw [← rank_lt_rank_iff, not_lt]

end DiagramLayout.Single
