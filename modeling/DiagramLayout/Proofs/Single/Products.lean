import DiagramLayout.Proofs.Single.Whole

/-!
# Products of sizes

Two sizes of at least one, maybe infinite ones, have a product that is nearest to the product of
their values. So where a rounded product is at most an integer of fewer than 24 binary digits, the
product of the whole parts is, too.
-/

namespace DiagramLayout.Single

open Float.Model (Format UnpackedFloat)
open Float.Model.UnpackedFloat

variable {x y : Float32}

theorem infinity_mul_infinity :
  mul .binary32 (.infinity .positive) (.infinity .positive) = .infinity .positive
  := by
  rfl

/-- The form in which a positive number is unpacked. -/
theorem exists_unpack_of_pos (hx : IsRational x) (h : 0 < value x) :
  ∃ m e hpos, x.toModel.unpack = .finite .positive m e hpos
  := by
  unfold IsRational at hx
  unfold value at h
  generalize x.toModel.unpack = u at hx h
  cases hx with
  | zero s => apply absurd h (lt_irrefl _)
  | @finite s m e hpos hc he => cases s with
    | negative =>
      have hpositive : (0 : ℚ) < m * 2 ^ e := by positivity
      rw [exactValue_finite, signed] at h
      linarith
    | positive => exact ⟨m, e, hpos, rfl⟩

/-- A product of which one factor is infinite. -/
theorem unpack_mul_of_infinity (hx : IsNumber x) (hxpos : 0 < value x) (hy : IsNumber y)
    (hypos : 0 < value y) (h : ¬(IsRational x ∧ IsRational y)) :
  (x * y).toModel.unpack = .infinity .positive
  := by
  have hpack : unpack .binary32 (pack .binary32 (.infinity .positive)) = .infinity .positive :=
    unpack_packedInfinity .positive
  have hproduct : (x * y).toModel.unpack
      = unpack .binary32 (pack .binary32 (mul .binary32 x.toModel.unpack y.toModel.unpack)) := rfl
  rw [hproduct]
  rcases hx.cases (by linarith) with hx' | hx'
  · rcases hy.cases (by linarith) with hy' | hy'
    · rw [hx', hy', infinity_mul_infinity, hpack]
    · obtain ⟨m, e, hpos, hy'⟩ := exists_unpack_of_pos hy' hypos
      rw [hx', hy']
      apply hpack
  · rcases hy.cases (by linarith) with hy' | hy'
    · obtain ⟨m, e, hpos, hx'⟩ := exists_unpack_of_pos hx' hxpos
      rw [hx', hy']
      apply hpack
    · apply absurd ⟨hx', hy'⟩ h

/-- A product of two numbers that are at least one is nearest to the product of their values,
infinite numbers included. -/
theorem isNearest_mul_of_one_le (hx : IsNumber x) (hx' : 1 ≤ value x) (hy : IsNumber y)
    (hy' : 1 ≤ value y) :
  IsNearest (x * y) (value x * value y)
  := by
  by_cases h : IsRational x ∧ IsRational y
  · apply isNearest_mul h.1 h.2
  · have hproduct := unpack_mul_of_infinity hx (by linarith) hy (by linarith) h
    have hlarge : 2 ^ 128 ≤ value x * value y := by
      by_contra! hless
      apply h
      constructor
      · apply hx.isRational
        rw [abs_of_nonneg (by linarith)]
        exact (le_mul_of_one_le_right (by linarith) hy').trans_lt hless
      · apply hy.isRational
        rw [abs_of_nonneg (by linarith)]
        exact (le_mul_of_one_le_left (by linarith) hx').trans_lt hless
    apply isNearest_of_infinity _ hproduct
    rw [← rounded_of_isSingle (isSingle_two_pow (k := 128))]
    apply rounded_mono hlarge

/-- The whole part of a number that is not negative is not above it. -/
theorem toInt32_le_value (hx : IsNumber x) (h : 0 ≤ value x) :
  (toInt32 x : ℚ) ≤ value x
  := by
  have ho := hx.isOrdered
  have hint : toInt32 x = max (-0x80000000)
    (min 0x7fffffff (x.toModel.unpack.toInt (-0x80000000) 0x7fffffff)) := rfl
  rw [hint]
  unfold value at h ⊢
  generalize x.toModel.unpack = u at ho h ⊢
  cases ho with
  | infinity s => cases s with
    | negative => norm_num [signed] at h
    | positive =>
      rw [exactValue_infinity, UnpackedFloat.toInt, signed]
      norm_num
  | finite hfinite => cases hfinite with
    | zero s =>
      rw [exactValue_zero, UnpackedFloat.toInt]
      norm_num
    | @finite s m e hpos hc he =>
      have hpositive : (0 : ℚ) < m * 2 ^ e := by positivity
      rw [exactValue_finite] at h ⊢
      rw [UnpackedFloat.toInt, roundToInt_eq_floor]
      cases s with
      | negative =>
        rw [signed] at h
        linarith
      | positive =>
        -- The bounds of the conversion can only lower a whole part that is not negative.
        have hnonneg : 0 ≤ ⌊(m : ℚ) * 2 ^ e⌋ := Int.floor_nonneg.mpr hpositive.le
        have hheld : max (-0x80000000) (min 0x7fffffff (Sign.positive.apply ⌊(m : ℚ) * 2 ^ e⌋))
            ≤ ⌊(m : ℚ) * 2 ^ e⌋ := by
          simp only [Sign.apply]
          omega
        exact Int.le_floor.mp hheld

/-- A value that is not below two, infinity included, is a number and at least one. -/
theorem one_le_value (h : 2.0 ≤ x) :
  IsNumber x ∧ 1 ≤ value x
  := by
  obtain ⟨-, hx, hle⟩ := le_iff.mp h
  rw [isWhole_two.value_eq] at hle
  push_cast at hle
  exact ⟨hx, by linarith⟩

/-- The whole parts of two sizes whose rounded product is at most an integer have a product that is
at most that integer. -/
theorem toInt32_mul_le {n : ℕ} (hx : 2.0 ≤ x) (hy : 2.0 ≤ y) (hn : n < 2 ^ 24)
    (h : x * y ≤ Float32.ofNat n) :
  toInt32 x * toInt32 y ≤ n
  := by
  obtain ⟨hxnumber, hxone⟩ := one_le_value hx
  obtain ⟨hynumber, hyone⟩ := one_le_value hy
  have hxwhole := toInt32_le_value hxnumber (by linarith)
  have hywhole := toInt32_le_value hynumber (by linarith)
  have hypos : (0 : ℚ) ≤ toInt32 y := by
    have hytwo := two_le_toInt32 hy
    exact_mod_cast (by omega : 0 ≤ toInt32 y)
  have hproduct := isNearest_mul_of_one_le hxnumber hxone hynumber hyone
  by_contra! hlarge
  have hle : ((n + 1 : ℕ) : ℚ) ≤ value x * value y :=
    calc ((n + 1 : ℕ) : ℚ) ≤ (toInt32 x * toInt32 y : ℤ) := by exact_mod_cast hlarge
      _ ≤ value x * value y := by
        push_cast
        exact mul_le_mul hxwhole hywhole hypos (by linarith)
  -- The next integer is a number of single precision, so the product is not rounded below it.
  have hnext : Float32.ofNat (n + 1) ≤ x * y := (isNearest_ofNat (n + 1)).le hproduct hle
  have hvalue := (le_iff.mp (Single.le_trans hnext h)).2.2
  rw [(value_ofNat hn).2, (value_ofNat (by omega : n ≤ 2 ^ 24)).2] at hvalue
  have hless : n + 1 ≤ n := by exact_mod_cast hvalue
  omega

end DiagramLayout.Single
