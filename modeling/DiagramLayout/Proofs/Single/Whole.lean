import DiagramLayout.Proofs.Single.Operations

/-!
# Whole numbers in single precision

Sums, differences and products of integers are exact as long as they have at most 24 binary digits,
and so is rounding to a whole number. A quotient of integers is not exact, but it is close enough to
the exact one to be rounded to the same whole number.
-/

namespace DiagramLayout.Single

open Float.Model (Format UnpackedFloat)
open Float.Model.UnpackedFloat

/-- The number `x` is the integer `n`. -/
structure IsWhole (x : Float32) (n : ℤ) : Prop where
  isRational : IsRational x
  value_eq : value x = n

/-- What is nearest to an integer of moderate size is this integer. -/
theorem IsNearest.isWhole {x : Float32} {n : ℤ} (hx : IsNearest x n) (hn : |n| ≤ 2 ^ 24) :
  IsWhole x n
  := by
  have hround : rounded (n : ℚ) = n := rounded_of_isSingle (isSingle_intCast hn)
  have hlt : |rounded (n : ℚ)| < 2 ^ 128 := by
    rw [hround, ← Int.cast_abs]
    exact_mod_cast hn.trans_lt (by norm_num)
  obtain ⟨hrational, hvalue⟩ := hx.value_of_abs_lt hlt
  rw [hround] at hvalue
  exact ⟨hrational, hvalue⟩

/-- Natural numbers of moderate size become whole numbers. -/
theorem isWhole_ofNat {n : ℕ} (h : n ≤ 2 ^ 24) :
  IsWhole (Float32.ofNat n) n
  := by
  obtain ⟨hrational, hvalue⟩ := value_ofNat h
  exact ⟨hrational, hvalue⟩

theorem isWhole_zero :
  IsWhole 0.0 0
  := isWhole_ofNat (n := 0) (by norm_num)

theorem isWhole_one :
  IsWhole 1.0 1
  := isWhole_ofNat (n := 1) (by norm_num)

theorem isWhole_two :
  IsWhole 2.0 2
  := isWhole_ofNat (n := 2) (by norm_num)

namespace IsWhole

variable {x y : Float32} {m n : ℤ}

theorem isNumber (h : IsWhole x n) :
  IsNumber x
  := h.isRational.isNumber

/-- Sums of whole numbers are exact. -/
theorem add (hx : IsWhole x m) (hy : IsWhole y n) (h : |m + n| ≤ 2 ^ 24) :
  IsWhole (x + y) (m + n)
  := by
  have hsum := isNearest_add hx.isRational hy.isRational
  rw [hx.value_eq, hy.value_eq, ← Int.cast_add] at hsum
  apply hsum.isWhole h

/-- Differences of whole numbers are exact. -/
theorem sub (hx : IsWhole x m) (hy : IsWhole y n) (h : |m - n| ≤ 2 ^ 24) :
  IsWhole (x - y) (m - n)
  := by
  have hdiff := isNearest_sub hx.isRational hy.isRational
  rw [hx.value_eq, hy.value_eq, ← Int.cast_sub] at hdiff
  apply hdiff.isWhole h

/-- Products of whole numbers are exact. -/
theorem mul (hx : IsWhole x m) (hy : IsWhole y n) (h : |m * n| ≤ 2 ^ 24) :
  IsWhole (x * y) (m * n)
  := by
  have hproduct := isNearest_mul hx.isRational hy.isRational
  rw [hx.value_eq, hy.value_eq, ← Int.cast_mul] at hproduct
  apply hproduct.isWhole h

/-- Whole numbers compare as their integers. -/
theorem le_iff (hx : IsWhole x m) (hy : IsWhole y n) :
  x ≤ y ↔ m ≤ n
  := by
  rw [Single.le_iff, hx.value_eq, hy.value_eq, Int.cast_le]
  constructor
  · intro h
    exact h.2.2
  · intro h
    exact ⟨hx.isNumber, hy.isNumber, h⟩

/-- A whole number is less than another one when its integer is. -/
theorem lt_iff (hx : IsWhole x m) (hy : IsWhole y n) :
  x < y ↔ m < n
  := by
  rw [Single.lt_iff, hx.value_eq, hy.value_eq, Int.cast_lt]
  constructor
  · intro h
    exact h.2.2
  · intro h
    exact ⟨hx.isNumber, hy.isNumber, h⟩

/-- The greater of two whole numbers is that of the greater integer. -/
theorem greater (hx : IsWhole x m) (hy : IsWhole y n) :
  IsWhole (greater x y) (max m n)
  := by
  have hnumber : x.isNaN = false := hx.isNumber
  simp only [Single.greater, hnumber, Bool.false_eq_true, if_false]
  split_ifs with hlt
  · rw [max_eq_right ((hx.lt_iff hy).mp hlt).le]
    apply hy
  · rw [max_eq_left (not_lt.mp (mt (hx.lt_iff hy).mpr hlt))]
    apply hx

/-- The lesser of two whole numbers is that of the lesser integer. -/
theorem lesser (hx : IsWhole x m) (hy : IsWhole y n) :
  IsWhole (lesser x y) (min m n)
  := by
  have hnumber : x.isNaN = false := hx.isNumber
  simp only [Single.lesser, hnumber, Bool.false_eq_true, if_false]
  split_ifs with hlt
  · rw [min_eq_right ((hy.lt_iff hx).mp hlt).le]
    apply hy
  · rw [min_eq_left (not_lt.mp (mt (hy.lt_iff hx).mpr hlt))]
    apply hx

/-- A number is whole for one integer only. -/
theorem unique (hm : IsWhole x m) (hn : IsWhole x n) :
  m = n
  := by
  have h := hm.value_eq
  rw [hn.value_eq] at h
  exact_mod_cast h.symm

theorem nonneg (h : IsWhole x n) (hn : 0 ≤ n) :
  0.0 ≤ x
  := (isWhole_zero.le_iff h).mpr hn

end IsWhole

/-- The place at an index of places with one distance between them. -/
theorem isWhole_place {start step : Float32} {a b : ℤ} (hstart : IsWhole start a)
    (hstep : IsWhole step b) (index : ℕ) (hindex : index ≤ 2 ^ 24) (hb : |index * b| ≤ 2 ^ 24)
    (hab : |a + index * b| ≤ 2 ^ 24) :
  IsWhole (start + Float32.ofNat index * step) (a + index * b)
  := hstart.add ((isWhole_ofNat hindex).mul hstep hb) hab

/-! ### Absolute values -/

/-- The absolute value of a finite number is exact. -/
theorem isFinite_abs {u : UnpackedFloat} (h : IsFinite u) :
  unpack .binary32 (pack .binary32 u.abs) = u.abs ∧ IsFinite u.abs ∧ exactValue u.abs = |exactValue u|
  := by
  cases h with
  | zero s =>
    refine ⟨unpack_packedZero, IsFinite.zero _, ?_⟩
    simp [UnpackedFloat.abs]
  | @finite s m e hpos hc he =>
    refine ⟨unpack_pack hpos hc he, IsFinite.finite _ hpos hc he, ?_⟩
    rw [exactValue_finite, abs_signed, abs_of_pos (by positivity)]
    rfl

/-- Dropping the sign of a finite number gives the absolute value of its value. -/
theorem isRational_abs {x : Float32} (h : IsRational x) :
  IsRational x.abs ∧ value x.abs = |value x|
  := by
  obtain ⟨hunpack, hfinite, hvalue⟩ := isFinite_abs h
  have habs : x.abs.toModel.unpack = x.toModel.unpack.abs := hunpack
  constructor
  · rw [IsRational, habs]
    apply hfinite
  · rw [value, habs, hvalue, value]

/-- The absolute value of a whole number is whole. -/
theorem IsWhole.abs {x : Float32} {n : ℤ} (h : IsWhole x n) :
  IsWhole x.abs |n|
  := by
  obtain ⟨hrational, hvalue⟩ := isRational_abs h.isRational
  rw [h.value_eq, ← Int.cast_abs] at hvalue
  exact ⟨hrational, hvalue⟩

theorem isFinite_neg {u : UnpackedFloat} (h : IsFinite u) :
  unpack .binary32 (pack .binary32 u.neg) = u.neg
  := by
  cases h with
  | zero s => apply unpack_packedZero
  | finite s hpos hc he => apply unpack_pack hpos hc he

/-- The opposite of a whole number is whole. -/
theorem IsWhole.neg {x : Float32} {n : ℤ} (h : IsWhole x n) :
  IsWhole (-x) (-n)
  := by
  have hneg : (-x).toModel.unpack = x.toModel.unpack.neg := isFinite_neg h.isRational
  constructor
  · rw [IsRational, hneg]
    apply IsFinite.neg h.isRational
  · have hvalue := h.value_eq
    rw [value] at hvalue
    rw [value, hneg, exactValue_neg, hvalue, Int.cast_neg]

/-- Integers of moderate size become whole numbers. -/
theorem isWhole_ofInt {n : ℤ} (h : |n| ≤ 2 ^ 24) :
  IsWhole (Float32.ofInt n) n
  := by
  cases n with
  | ofNat n =>
    apply isWhole_ofNat
    rw [Int.ofNat_eq_natCast, Nat.abs_cast] at h
    exact_mod_cast h
  | negSucc n =>
    have hle : n + 1 ≤ 2 ^ 24 := by
      have hlow := (abs_le.mp h).1
      omega
    apply (isWhole_ofNat hle).neg

/-! ### Rounding to a whole number -/

/-- A finite number has a mantissa and an exponent that make up its value. -/
theorem exists_parts {x : Float32} (h : IsRational x) :
  ∃ m e : ℤ, parts? x = some (m, e) ∧ value x = m * 2 ^ e
  := by
  unfold IsRational at h
  unfold parts? value
  generalize x.toModel.unpack = u at h
  cases h with
  | zero s =>
    use 0, 0, rfl
    simp
  | @finite s m e hpos hc he =>
    use s.apply m, e, rfl
    rw [exactValue_finite, cast_apply]
    cases s with
    | negative => exact (neg_mul _ _).symm
    | positive => rfl

/-- Rounding by a rule gives a whole number that is as near as the rule says. -/
theorem exists_isWhole_roundBy (round : ℤ → ℕ → ℤ) (near : ℤ → ℚ → Prop)
    (hself : ∀ n : ℤ, near n n) (hround : ∀ m k, near (round m k) (m / 2 ^ k))
    (hnear : ∀ n v, near n v → |n - v| ≤ 1) {x : Float32} (h : IsRational x)
    (hx : |value x| ≤ 2 ^ 23) :
  ∃ n, IsWhole (roundBy round x) n ∧ near n (value x) ∧ |n| ≤ 2 ^ 24
  := by
  -- Whatever is near a number within the bound is hardly farther out itself.
  have hbound : ∀ n, near n (value x) → |n| ≤ 2 ^ 24 := by
    intro n hn
    have hdist := abs_le.mp (hnear n _ hn)
    have hvalue := abs_le.mp hx
    have hle : |(n : ℚ)| ≤ 2 ^ 24 := by
      rw [abs_le]
      constructor
      · linarith
      · linarith
    exact_mod_cast hle
  obtain ⟨m, e, hparts, hvalue⟩ := exists_parts h
  unfold roundBy
  rw [hparts]
  cases e with
  | ofNat e =>
    have hcast : value x = ((m * 2 ^ e : ℤ) : ℚ) := by
      rw [hvalue]
      push_cast
      rfl
    have hn := hself (m * 2 ^ e)
    rw [← hcast] at hn
    exact ⟨m * 2 ^ e, ⟨h, hcast⟩, hn, hbound _ hn⟩
  | negSucc k =>
    -- With a negative exponent the value is a quotient by a power of two, which the rule rounds.
    have hquot : value x = m / 2 ^ (k + 1) := by
      rw [hvalue, zpow_negSucc, div_eq_mul_inv]
    have hn := hround m (k + 1)
    rw [← hquot] at hn
    refine ⟨round m (k + 1), ?_, hn, hbound _ hn⟩
    simp only
    split_ifs with hzero
    · rw [hzero, zeroLike]
      split_ifs
      · apply isWhole_zero.neg
      · apply isWhole_zero
    · apply isWhole_ofInt (hbound _ hn)

/-- Rounding a quotient down is rounding it to the greatest integer that is not above it. -/
theorem floorDiv_eq (m : ℤ) (k : ℕ) :
  floorDiv m k = ⌊(m : ℚ) / 2 ^ k⌋
  := by
  have hfloor := Rat.floor_intCast_div_natCast m (2 ^ k)
  push_cast at hfloor
  rw [hfloor, floorDiv, Nat.pow_eq, Int.fdiv_eq_ediv_of_nonneg _ (by positivity), Nat.cast_pow,
    Nat.cast_ofNat]

/-- Rounding a quotient up is rounding it to the least integer that is not below it. -/
theorem ceilDiv_eq (m : ℤ) (k : ℕ) :
  ceilDiv m k = ⌈(m : ℚ) / 2 ^ k⌉
  := by
  have hfloor := floorDiv_eq (-m) k
  rw [floorDiv] at hfloor
  rw [ceilDiv, hfloor, Int.cast_neg, neg_div, Int.floor_neg, neg_neg]

/-- Rounding a quotient to the nearest integer moves it by at most a half. -/
theorem abs_nearestDiv_sub_le (m : ℤ) (k : ℕ) :
  |(nearestDiv m k : ℚ) - m / 2 ^ k| ≤ 1 / 2
  := by
  have hpos : (0 : ℚ) < 2 ^ k := by positivity
  -- The quotient is rounded without its sign; a half is added before the division.
  have hnat : ∀ a : ℕ, |(((2 * a + 2 ^ k) / 2 ^ (k + 1) : ℕ) : ℚ) - a / 2 ^ k| ≤ 1 / 2 := by
    intro a
    have hdiv := Nat.div_add_mod (2 * a + 2 ^ k) (2 ^ (k + 1))
    have hmod := Nat.mod_lt (2 * a + 2 ^ k) (show 0 < 2 ^ (k + 1) by positivity)
    set n := (2 * a + 2 ^ k) / 2 ^ (k + 1)
    have hle : (2 * 2 ^ k * n : ℚ) ≤ 2 * a + 2 ^ k := by
      rw [pow_succ'] at hdiv
      exact_mod_cast (by omega : 2 * 2 ^ k * n ≤ 2 * a + 2 ^ k)
    have hlt : (2 * a + 2 ^ k : ℚ) < 2 * 2 ^ k * n + 2 * 2 ^ k := by
      rw [pow_succ'] at hdiv hmod
      exact_mod_cast (by omega : 2 * a + 2 ^ k < 2 * 2 ^ k * n + 2 * 2 ^ k)
    have ha : (a : ℚ) = a / 2 ^ k * 2 ^ k := (div_mul_cancel₀ _ hpos.ne').symm
    rw [abs_le]
    constructor
    · by_contra! hless
      have hmul := mul_lt_mul_of_pos_right hless hpos
      linarith
    · by_contra! hmore
      have hmul := mul_lt_mul_of_pos_right hmore hpos
      linarith
  rw [nearestDiv, Nat.pow_eq, Nat.pow_eq]
  rcases lt_trichotomy m 0 with hneg | rfl | hm
  · have hm : (m : ℚ) = -(m.natAbs : ℚ) := by
      rw [Nat.cast_natAbs, abs_of_neg hneg, Int.cast_neg, neg_neg]
    rw [Int.sign_eq_neg_one_of_neg hneg, neg_one_mul, Int.cast_neg, Int.cast_natCast, hm, neg_div,
      ← neg_sub', abs_neg]
    apply hnat
  · norm_num
  · have hm' : (m : ℚ) = (m.natAbs : ℚ) := by
      rw [Nat.cast_natAbs, abs_of_pos hm]
    rw [Int.sign_eq_one_of_pos hm, one_mul, Int.cast_natCast, hm']
    apply hnat

/-- Rounding down gives the greatest integer that is not above the value. -/
theorem isWhole_floor {x : Float32} (h : IsRational x) (hx : |value x| ≤ 2 ^ 23) :
  IsWhole (floor x) ⌊value x⌋ ∧ |⌊value x⌋| ≤ 2 ^ 24
  := by
  obtain ⟨n, hwhole, rfl, hn⟩ := exists_isWhole_roundBy floorDiv (fun n v => n = ⌊v⌋)
    (fun n => (Int.floor_intCast n).symm) floorDiv_eq (by
      rintro n v rfl
      have hle := Int.floor_le v
      have hlt := Int.lt_floor_add_one v
      rw [abs_le]
      constructor
      · linarith
      · linarith) h hx
  exact ⟨hwhole, hn⟩

/-- Rounding up gives the least integer that is not below the value. -/
theorem isWhole_ceil {x : Float32} (h : IsRational x) (hx : |value x| ≤ 2 ^ 23) :
  IsWhole (ceil x) ⌈value x⌉ ∧ |⌈value x⌉| ≤ 2 ^ 24
  := by
  obtain ⟨n, hwhole, rfl, hn⟩ := exists_isWhole_roundBy ceilDiv (fun n v => n = ⌈v⌉)
    (fun n => (Int.ceil_intCast n).symm) ceilDiv_eq (by
      rintro n v rfl
      have hle := Int.le_ceil v
      have hlt := Int.ceil_lt_add_one v
      rw [abs_le]
      constructor
      · linarith
      · linarith) h hx
  exact ⟨hwhole, hn⟩

/-- Rounding to the nearest integer gives a whole number at most a half away. -/
theorem exists_isWhole_nearest {x : Float32} (h : IsRational x) (hx : |value x| ≤ 2 ^ 23) :
  ∃ n, IsWhole (nearest x) n ∧ |n - value x| ≤ 1 / 2 ∧ |n| ≤ 2 ^ 24
  := by
  apply exists_isWhole_roundBy nearestDiv (fun n v => |n - v| ≤ 1 / 2) _ abs_nearestDiv_sub_le _ h hx
  · intro n
    norm_num
  · intro n v hle
    linarith

/-! ### Conversion to integers -/

/-- Conversion to an integer cuts off the fraction. -/
theorem roundToInt_eq_floor (s : Sign) (m : ℕ) (e : ℤ) :
  UnpackedFloat.roundToInt s m e = s.apply ⌊(m : ℚ) * 2 ^ e⌋
  := by
  have hvalue := decreaseExponent_value m e 0
  have hle := decreaseExponent_snd_le m e 0
  unfold UnpackedFloat.roundToInt shiftToExponent
  generalize decreaseExponent m e 0 = d at hvalue hle
  obtain ⟨m', e'⟩ := d
  obtain ⟨k, rfl⟩ := Int.exists_eq_neg_ofNat hle
  have hshift := ((describes_ofMantissaAndAccuracy_exact m').shiftRight k).floor
  rw [zpow_neg, zpow_natCast, ← div_eq_mul_inv] at hvalue
  rw [hvalue] at hshift
  simp only [zero_sub, neg_neg, Int.toNat_natCast]
  rw [hshift]

/-- What is a natural number is rounded to this number with its sign. -/
theorem roundToInt_eq {s : Sign} {m n : ℕ} {e : ℤ} (h : (m : ℚ) * 2 ^ e = n) :
  UnpackedFloat.roundToInt s m e = s.apply n
  := by
  rw [roundToInt_eq_floor, h, Int.floor_natCast]

/-- A whole number is converted to the integer that it is. -/
theorem IsWhole.toInt32 {x : Float32} {n : ℤ} (h : IsWhole x n) (hn : |n| < 2 ^ 31) :
  Single.toInt32 x = n
  := by
  have hint : x.toModel.unpack.toInt (-0x80000000) 0x7fffffff = n := by
    obtain ⟨hfinite, hvalue⟩ := h
    unfold IsRational at hfinite
    unfold value at hvalue
    generalize x.toModel.unpack = u at hfinite hvalue
    cases hfinite with
    | zero s =>
      rw [exactValue_zero] at hvalue
      exact_mod_cast hvalue
    | @finite s m e hpos hc he =>
      have habs : (m : ℚ) * 2 ^ e = n.natAbs := by
        rw [Nat.cast_natAbs, Int.cast_abs, ← hvalue, exactValue_finite, abs_signed,
          abs_of_pos (by positivity)]
      have happly : ((s.apply n.natAbs : ℤ) : ℚ) = n := by
        rw [cast_apply, Int.cast_natCast, ← habs, ← hvalue, exactValue_finite]
      rw [UnpackedFloat.toInt, roundToInt_eq habs]
      exact_mod_cast happly
  rw [abs_lt] at hn
  rw [Single.toInt32, saturate, hint]
  omega

/-- An integer read off a number fits in 32 bits. -/
theorem toInt32_le (x : Float32) :
  toInt32 x ≤ 2 ^ 31 - 1
  := by
  rw [toInt32, saturate]
  omega

/-- A number of at least two, maybe an infinite one, is converted to an integer of at least two. -/
theorem two_le_toInt32 {x : Float32} (h : 2.0 ≤ x) :
  2 ≤ toInt32 x
  := by
  obtain ⟨-, hx, hle⟩ := le_iff.mp h
  rw [isWhole_two.value_eq] at hle
  have hint : 2 ≤ x.toModel.unpack.toInt (-0x80000000) 0x7fffffff := by
    have ho := hx.isOrdered
    unfold value at hle
    generalize x.toModel.unpack = u at ho hle
    cases ho with
    | infinity s => cases s with
      | negative => norm_num [signed] at hle
      | positive => decide
    | finite hfinite => cases hfinite with
      | zero s => norm_num at hle
      | @finite s m e hpos hc he =>
        rw [exactValue_finite] at hle
        rw [UnpackedFloat.toInt, roundToInt_eq_floor]
        cases s with
        | negative =>
          have hpositive : (0 : ℚ) < m * 2 ^ e := by positivity
          rw [signed] at hle
          push_cast at hle
          linarith
        | positive => exact Int.le_floor.mpr hle
  rw [toInt32, saturate]
  omega

/-! ### Quotients -/

/-- The error of a quotient is less than half the least distance of a quotient from an integer. -/
theorem abs_rounded_div_sub_lt {m n : ℤ} (hm : |m| < 2 ^ 23) (hn : 0 < n) (hn' : n ≤ 2 ^ 23) :
  |rounded (m / n) - m / n| < 1 / (2 * n)
  := by
  have hpos : (0 : ℚ) < n := by exact_mod_cast hn
  rcases eq_or_ne m 0 with rfl | hzero
  · rw [Int.cast_zero, zero_div, rounded_zero, sub_zero, abs_zero]
    positivity
  · have hm' : |(m : ℚ)| < 2 ^ 23 := by exact_mod_cast hm
    have hone : (1 : ℚ) ≤ |(m : ℚ)| := by exact_mod_cast Int.one_le_abs hzero
    have hquot : |(m / n : ℚ)| = |(m : ℚ)| / n := by rw [abs_div, abs_of_pos hpos]
    have hne : (m / n : ℚ) ≠ 0 := by
      apply div_ne_zero _ hpos.ne'
      exact_mod_cast hzero
    have herr := abs_rounded_sub_le (m / n : ℚ)
    have hlow : -149 < lastPlace (m / n : ℚ) := by
      by_contra! hle
      have hn'' : (n : ℚ) ≤ 2 ^ 23 := by exact_mod_cast hn'
      have hlt := abs_lt_two_zpow_lastPlace (m / n : ℚ)
      have hpow : (2 : ℚ) ^ (lastPlace (m / n : ℚ) + 24) ≤ 2 ^ (-23 : ℤ) :=
        zpow_le_zpow_right₀ (by norm_num) (by omega)
      have hless := hlt.trans_le hpow
      rw [hquot, div_lt_iff₀ hpos] at hless
      norm_num at hless
      linarith
    have hplace := two_zpow_lastPlace_le hne hlow
    rw [hquot, zpow_add₀ (by norm_num), le_div_iff₀ hpos] at hplace
    norm_num at hplace
    rw [lt_div_iff₀ (by positivity)]
    calc |rounded (m / n : ℚ) - m / n| * (2 * n)
        ≤ 2 ^ lastPlace (m / n : ℚ) / 2 * (2 * n) := by gcongr
      _ = 2 ^ lastPlace (m / n : ℚ) * n := by ring
      _ < 1 := by linarith

/-- The number `x` is near enough to `m / n` to stand between the same integers. -/
structure IsQuotient (x : Float32) (m n : ℤ) : Prop where
  isRational : IsRational x
  pos : 0 < n
  bounded : |value x| ≤ 2 ^ 23
  error_lt : |value x - m / n| < 1 / (2 * n)
  eq_of_mul : ∀ k : ℤ, m = k * n → value x = k

/-- The quotient of two whole numbers is the rounded quotient of their integers. -/
theorem IsWhole.div {x y : Float32} {m n : ℤ} (hx : IsWhole x m) (hy : IsWhole y n)
    (hm : |m| < 2 ^ 23) (hn : 0 < n) (hn' : n ≤ 2 ^ 23) :
  IsQuotient (x / y) m n
  := by
  have hpos : (0 : ℚ) < n := by exact_mod_cast hn
  have hne : value y ≠ 0 := by
    rw [hy.value_eq]
    apply hpos.ne'
  have hdiv := isNearest_div hx.isRational hy.isRational hne
  rw [hx.value_eq, hy.value_eq] at hdiv
  have hbound : |rounded (m / n : ℚ)| ≤ 2 ^ 23 := by
    have hone : (1 : ℚ) ≤ n := by exact_mod_cast hn
    have hm' : |(m : ℚ)| < 2 ^ 23 := by exact_mod_cast hm
    apply abs_rounded_le
    rw [abs_div, abs_of_pos hpos]
    apply (div_le_self (abs_nonneg _) hone).trans hm'.le
  obtain ⟨hrational, hvalue⟩ := hdiv.value_of_abs_lt (hbound.trans_lt (by norm_num))
  constructor
  case isRational => apply hrational
  case pos => apply hn
  case bounded => rwa [hvalue]
  case error_lt =>
    rw [hvalue]
    apply abs_rounded_div_sub_lt hm hn hn'
  case eq_of_mul =>
    rintro k rfl
    have hk : |k| ≤ 2 ^ 24 := by
      rw [abs_mul, abs_of_pos hn] at hm
      have hle := le_mul_of_one_le_right (abs_nonneg k) (Int.add_one_le_iff.mpr hn)
      linarith
    rw [hvalue, Int.cast_mul, mul_div_cancel_right₀ _ hpos.ne',
      rounded_of_isSingle (isSingle_intCast hk)]

/-- Half an even number is whole. -/
theorem IsWhole.half {x : Float32} {k : ℤ} (h : IsWhole x (k * 2)) (hk : |k * 2| < 2 ^ 23) :
  IsWhole (x / 2.0) k
  := by
  have hquotient := h.div isWhole_two hk (by norm_num) (by norm_num)
  exact ⟨hquotient.isRational, hquotient.eq_of_mul k rfl⟩

namespace IsQuotient

variable {x : Float32} {m n k : ℤ}

/-- A rounded quotient times the divisor is less than a half away from the dividend. -/
theorem lt_mul (h : IsQuotient x m n) :
  value x * n < m + 1 / 2 ∧ m < value x * n + 1 / 2
  := by
  have hpos : (0 : ℚ) < n := by exact_mod_cast h.pos
  have hlt := mul_lt_mul_of_pos_right h.error_lt hpos
  rw [← abs_of_pos hpos, ← abs_mul, abs_of_pos hpos, sub_mul, div_mul_cancel₀ _ hpos.ne',
    show 1 / (2 * (n : ℚ)) * n = 1 / 2 by field_simp] at hlt
  obtain ⟨hlow, hhigh⟩ := abs_lt.mp hlt
  constructor
  · linarith
  · linarith

/-- A quotient that is exactly at least an integer is so when it is rounded. -/
theorem le_value (h : IsQuotient x m n) (hk : k * n ≤ m) :
  k ≤ value x
  := by
  rcases hk.eq_or_lt with heq | hlt
  · apply (h.eq_of_mul k heq.symm).ge
  · have hpos : (0 : ℚ) < n := by exact_mod_cast h.pos
    have hstep : ((k * n + 1 : ℤ) : ℚ) ≤ m := by exact_mod_cast hlt
    push_cast at hstep
    apply le_of_mul_le_mul_right _ hpos
    linarith [h.lt_mul.2]

/-- A quotient that is exactly at most an integer is so when it is rounded. -/
theorem value_le (h : IsQuotient x m n) (hk : m ≤ k * n) :
  value x ≤ k
  := by
  rcases hk.eq_or_lt with heq | hlt
  · apply (h.eq_of_mul k heq).le
  · have hpos : (0 : ℚ) < n := by exact_mod_cast h.pos
    have hstep : (m : ℚ) + 1 ≤ ((k * n : ℤ) : ℚ) := by exact_mod_cast hlt
    push_cast at hstep
    apply le_of_mul_le_mul_right _ hpos
    linarith [h.lt_mul.1]

/-- Rounding a quotient down gives the integer part of the exact quotient. -/
theorem floor (h : IsQuotient x m n) :
  ∃ k, IsWhole (Single.floor x) k ∧ |k| ≤ 2 ^ 24 ∧ k * n ≤ m ∧ m < (k + 1) * n
  := by
  obtain ⟨hwhole, hbound⟩ := isWhole_floor h.isRational h.bounded
  have hpos : (0 : ℚ) < n := by exact_mod_cast h.pos
  refine ⟨_, hwhole, hbound, ?_, ?_⟩
  · have hle := mul_le_mul_of_nonneg_right (Int.floor_le (value x)) hpos.le
    have hlt : ((⌊value x⌋ * n : ℤ) : ℚ) < ((m + 1 : ℤ) : ℚ) := by
      push_cast
      linarith [h.lt_mul.1]
    apply Int.lt_add_one_iff.mp
    exact_mod_cast hlt
  · by_contra! hle
    have hfloor := Int.le_floor.mpr (h.le_value hle)
    omega

/-- Rounding a quotient up gives the least integer whose product with the divisor reaches the
dividend. -/
theorem ceil (h : IsQuotient x m n) :
  ∃ k, IsWhole (Single.ceil x) k ∧ |k| ≤ 2 ^ 24 ∧ m ≤ k * n ∧ (k - 1) * n < m
  := by
  obtain ⟨hwhole, hbound⟩ := isWhole_ceil h.isRational h.bounded
  have hpos : (0 : ℚ) < n := by exact_mod_cast h.pos
  refine ⟨_, hwhole, hbound, ?_, ?_⟩
  · have hle := mul_le_mul_of_nonneg_right (Int.le_ceil (value x)) hpos.le
    have hlt : (m : ℚ) < ((⌈value x⌉ * n + 1 : ℤ) : ℚ) := by
      push_cast
      linarith [h.lt_mul.2]
    apply Int.lt_add_one_iff.mp
    exact_mod_cast hlt
  · by_contra! hle
    have hceil := Int.ceil_le.mpr (h.value_le hle)
    omega

/-- Rounding a quotient gives an integer that is nearest to the exact quotient. -/
theorem nearest (h : IsQuotient x m n) :
  ∃ k, IsWhole (Single.nearest x) k ∧ |k| ≤ 2 ^ 24 ∧ 2 * |m - k * n| ≤ n
  := by
  obtain ⟨k, hwhole, hnear, hbound⟩ := exists_isWhole_nearest h.isRational h.bounded
  have hpos : (0 : ℚ) < n := by exact_mod_cast h.pos
  refine ⟨k, hwhole, hbound, ?_⟩
  obtain ⟨hlow, hhigh⟩ := abs_le.mp hnear
  obtain ⟨hless, hmore⟩ := h.lt_mul
  have hlt : 2 * |m - k * n| < n + 1 := by
    have hcast : 2 * |(m - k * n : ℚ)| < n + 1 := by
      have hk : (k : ℚ) * n ≤ (value x + 1 / 2) * n := by
        gcongr
        linarith
      have hk' : (value x - 1 / 2) * n ≤ (k : ℚ) * n := by
        gcongr
        linarith
      have habs : |(m - k * n : ℚ)| < (n + 1) / 2 := by
        rw [abs_lt]
        constructor
        · linarith
        · linarith
      linarith
    exact_mod_cast hcast
  omega

end IsQuotient

end DiagramLayout.Single
