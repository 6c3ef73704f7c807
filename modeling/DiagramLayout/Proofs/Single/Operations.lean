import DiagramLayout.Proofs.Single.Value

/-!
# Operations on single-precision numbers

The sum, difference, product and quotient of two numbers with rational values is the number nearest
to the exact result, which is infinite when that result is too large. Adding what is not negative
never makes a number less.
-/

namespace DiagramLayout.Single

open Float.Model (Format UnpackedFloat totalExponent)
open Float.Model.UnpackedFloat

/-- The number `x` is not infinite. -/
def IsRational (x : Float32) : Prop :=
  IsFinite x.toModel.unpack

/-- The value of the number nearest to `x`. -/
def confined (x : ℚ) : ℚ :=
  max (-2 ^ 128) (min (rounded x) (2 ^ 128))

/-- The number `f` is the nearest one to `x`. -/
structure IsNearest (f : Float32) (x : ℚ) : Prop where
  isNumber : IsNumber f
  value_eq : value f = confined x

/-- A number with a rational value is a number. -/
theorem IsRational.isNumber {x : Float32} (h : IsRational x) :
  IsNumber x
  := by
  change x.toModel.unpack.isNaN = false
  unfold IsRational at h
  generalize x.toModel.unpack = u at h
  cases h with
  | zero s => rfl
  | finite s hpos hc he => rfl

/-- The numbers with rational values are those that are finite. -/
theorem isRational_iff {x : Float32} :
  IsRational x ↔ x.isFinite = true
  := by
  constructor
  · intro h
    change x.toModel.unpack.isFinite = true
    unfold IsRational at h
    generalize x.toModel.unpack = u at h
    cases h with
    | zero s => rfl
    | finite s hpos hc he => rfl
  · intro h
    apply isFinite_unpack rfl h

instance : DecidablePred IsRational :=
  fun _ => decidable_of_iff' _ isRational_iff

/-- The value of a finite number is below the value from which on numbers are infinite. -/
theorem IsRational.abs_value_lt {x : Float32} (h : IsRational x) :
  |value x| < 2 ^ 128
  := by
  apply IsFinite.abs_exactValue_lt h

/-- A number is finite when its value is below the value of infinite numbers. -/
theorem IsNumber.isRational {x : Float32} (h : IsNumber x) (hlt : |value x| < 2 ^ 128) :
  IsRational x
  := by
  have ho := h.isOrdered
  unfold IsRational
  unfold value at hlt
  generalize x.toModel.unpack = u at ho hlt
  cases ho with
  | infinity s =>
    rw [exactValue_infinity, abs_signed, abs_of_pos (by norm_num)] at hlt
    apply absurd hlt (lt_irrefl _)
  | finite hu => apply hu

/-- No value is greater than that of infinite numbers. -/
theorem IsNumber.abs_value_le {x : Float32} (h : IsNumber x) :
  |value x| ≤ 2 ^ 128
  := by
  have ho := h.isOrdered
  unfold value
  generalize x.toModel.unpack = u at ho
  cases ho with
  | infinity s => rw [exactValue_infinity, abs_signed, abs_of_pos (by norm_num)]
  | finite hu => apply hu.abs_exactValue_lt.le

/-! ### Nearest numbers -/

/-- Confining a rational keeps the order. -/
theorem confined_mono {x y : ℚ} (h : x ≤ y) :
  confined x ≤ confined y
  := by
  unfold confined
  have hle := rounded_mono h
  gcongr

/-- What rounds to the value of an infinite number at most is not changed by confining. -/
theorem confined_of_abs_le {x : ℚ} (h : |rounded x| ≤ 2 ^ 128) :
  confined x = rounded x
  := by
  obtain ⟨hlow, hhigh⟩ := abs_le.mp h
  rw [confined, min_eq_left hhigh, max_eq_right hlow]

/-- An infinite number is the nearest to all that rounds to `2 ^ 128` or more. -/
theorem isNearest_of_infinity {f : Float32} {s : Sign} {x : ℚ} (hx : 2 ^ 128 ≤ rounded x)
    (hf : f.toModel.unpack = .infinity s) :
  IsNearest f (signed s x)
  := by
  constructor
  · change f.toModel.unpack.isNaN = false
    rw [hf]
    rfl
  · rw [value, hf, exactValue_infinity, confined]
    cases s with
    | negative =>
      simp only [signed]
      rw [rounded_neg, min_eq_left (by linarith), max_eq_left (by linarith)]
    | positive =>
      simp only [signed]
      rw [min_eq_right hx, max_eq_right (by norm_num)]

/-- A sign goes through rounding. -/
theorem rounded_signed (s : Sign) (x : ℚ) :
  rounded (signed s x) = signed s (rounded x)
  := by
  cases s with
  | negative => apply rounded_neg
  | positive => rfl

/-- A finite number is the nearest to what rounds to its value. -/
theorem isNearest_of_isFinite {f : Float32} {x : ℚ} (hf : IsFinite f.toModel.unpack)
    (hvalue : exactValue f.toModel.unpack = rounded x) :
  IsNearest f x
  := by
  have hrational : IsRational f := hf
  use hrational.isNumber
  rw [confined_of_abs_le, value, hvalue]
  rw [← hvalue]
  apply hf.abs_exactValue_lt.le

/-- Packing a rounded number gives the nearest number. -/
theorem isNearest_pack {u : UnpackedFloat} {x : ℚ} (h : RoundsTo u x) :
  IsNearest (.ofModel (.pack u)) x
  := by
  obtain ⟨s, y, hy, rfl, hround⟩ := h
  cases hround with
  | zero hzero =>
    have hunpack : (Float32.ofModel (.pack (.zero s))).toModel.unpack = .zero s :=
      unpack_packedZero
    apply isNearest_of_isFinite
    · rw [hunpack]
      apply IsFinite.zero
    · rw [hunpack, rounded_signed, hzero, exactValue_zero]
      cases s with
      | negative => exact neg_zero.symm
      | positive => rfl
  | @finite _ m e _ hpos hc hvalue =>
    rcases le_or_gt e 104 with he | he
    · have hunpack : (Float32.ofModel (.pack (.finite s m e hpos))).toModel.unpack
          = .finite s m e hpos := unpack_pack hpos hc he
      apply isNearest_of_isFinite
      · rw [hunpack]
        apply IsFinite.finite s hpos hc he
      · rw [hunpack, rounded_signed, exactValue_finite, hvalue]
    · have hunpack : (Float32.ofModel (.pack (.finite s m e hpos))).toModel.unpack
          = .infinity s := unpack_pack_of_large hpos (by omega)
      apply isNearest_of_infinity _ hunpack
      have hm : (2 : ℚ) ^ 23 ≤ m := by exact_mod_cast hc.normal.resolve_left (by omega)
      have hpow : (2 : ℚ) ^ (105 : ℤ) ≤ 2 ^ e := zpow_le_zpow_right₀ (by norm_num) (by omega)
      calc (2 : ℚ) ^ 128 = (2 : ℚ) ^ 23 * (2 : ℚ) ^ (105 : ℤ) := by norm_num
        _ ≤ (m : ℚ) * 2 ^ e := by gcongr
        _ = rounded y := hvalue

/-- Nearest numbers stand in the order of the numbers that they are nearest to. -/
theorem IsNearest.le {f g : Float32} {x y : ℚ} (hf : IsNearest f x) (hg : IsNearest g y)
    (h : x ≤ y) :
  f ≤ g
  := by
  apply le_of_value hf.isNumber hg.isNumber
  rw [hf.value_eq, hg.value_eq]
  apply confined_mono h

/-- What is nearest to a rational of moderate size has the rounded value of it. -/
theorem IsNearest.value_of_abs_lt {f : Float32} {x : ℚ} (hf : IsNearest f x)
    (h : |rounded x| < 2 ^ 128) :
  IsRational f ∧ value f = rounded x
  := by
  have hvalue := hf.value_eq
  rw [confined_of_abs_le h.le] at hvalue
  constructor
  · apply hf.isNumber.isRational
    rwa [hvalue]
  · exact hvalue

/-- A finite number that is nearest to `x` is `x` rounded. -/
theorem IsNearest.value_eq_rounded {f : Float32} {x : ℚ} (hf : IsNearest f x) (h : IsRational f) :
  value f = rounded x
  := by
  have hlt := abs_lt.mp h.abs_value_lt
  rw [hf.value_eq, confined] at hlt ⊢
  grind

/-- Powers of two have exact numbers. -/
theorem isSingle_two_pow {k : ℕ} :
  IsSingle (2 ^ k)
  := by
  use 1, k, by norm_num, by omega
  simp

/-- Rounding a rational rounds its absolute value. -/
theorem abs_rounded (x : ℚ) :
  |rounded x| = rounded |x|
  := by
  rcases le_total 0 x with h | h
  · rw [abs_of_nonneg h, abs_of_nonneg (rounded_nonneg h)]
  · have hneg := rounded_nonneg (neg_nonneg.mpr h)
    rw [rounded_neg] at hneg
    rw [abs_of_nonpos h, rounded_neg, abs_of_nonpos (neg_nonneg.mp hneg)]

/-- Rounding does not lead beyond a power of two. -/
theorem abs_rounded_le {x : ℚ} {k : ℕ} (h : |x| ≤ 2 ^ k) :
  |rounded x| ≤ 2 ^ k
  := by
  rw [abs_rounded, ← rounded_of_isSingle (isSingle_two_pow (k := k))]
  apply rounded_mono h

/-- The value of a number is not changed by rounding. -/
theorem rounded_value {x : Float32} (h : IsNumber x) :
  rounded (value x) = value x
  := by
  have ho := h.isOrdered
  unfold value
  generalize x.toModel.unpack = u at ho
  cases ho with
  | infinity s => rw [exactValue_infinity, rounded_signed, rounded_of_isSingle isSingle_two_pow]
  | finite hu => cases hu with
    | zero s => exact rounded_zero
    | finite s hpos hc he =>
      rw [exactValue_finite, rounded_signed, rounded_of_isSingle (isSingle_of_isCanonical hc)]

/-- A number is the nearest one to its own value. -/
theorem IsNumber.isNearest {x : Float32} (h : IsNumber x) :
  IsNearest x (value x)
  := by
  use h
  rw [confined_of_abs_le, rounded_value h]
  rw [rounded_value h]
  apply h.abs_value_le

/-! ### Arithmetic -/

/-- The sum of two finite numbers is the nearest number to the sum of their values. -/
theorem isNearest_add {x y : Float32} (hx : IsRational x) (hy : IsRational y) :
  IsNearest (x + y) (value x + value y)
  := by
  apply isNearest_pack (roundsTo_add hx hy)

/-- The difference of two finite numbers is the nearest number to the difference of their values. -/
theorem isNearest_sub {x y : Float32} (hx : IsRational x) (hy : IsRational y) :
  IsNearest (x - y) (value x - value y)
  := by
  apply isNearest_pack (roundsTo_sub hx hy)

/-- The product of two finite numbers is the nearest number to the product of their values. -/
theorem isNearest_mul {x y : Float32} (hx : IsRational x) (hy : IsRational y) :
  IsNearest (x * y) (value x * value y)
  := by
  apply isNearest_pack (roundsTo_mul hx hy)

/-- The quotient of two finite numbers is the nearest number to the quotient of their values, as
long as the divisor is not zero. -/
theorem isNearest_div {x y : Float32} (hx : IsRational x) (hy : IsRational y) (h : value y ≠ 0) :
  IsNearest (x / y) (value x / value y)
  := by
  apply isNearest_pack (roundsTo_div hx hy h)

/-! ### Adding what is not negative -/

/-- A number that is not negative infinity is positive infinity or finite. -/
theorem IsNumber.cases {x : Float32} (h : IsNumber x) (hlow : -2 ^ 128 < value x) :
  x.toModel.unpack = .infinity .positive ∨ IsRational x
  := by
  have ho := h.isOrdered
  unfold IsRational
  unfold value at hlow
  generalize x.toModel.unpack = u at ho hlow
  cases ho with
  | infinity s => cases s with
    | negative => apply absurd hlow (lt_irrefl _)
    | positive =>
      left
      rfl
  | finite hu =>
    right
    apply hu

theorem unpack_add (x y : Float32) :
  (x + y).toModel.unpack
    = unpack .binary32 (pack .binary32 (add .binary32 x.toModel.unpack y.toModel.unpack))
  := rfl

/-- Adding positive infinity to what is not negative infinity gives positive infinity. -/
theorem add_infinity {u : UnpackedFloat} (h : u = .infinity .positive ∨ IsFinite u) :
  add .binary32 u (.infinity .positive) = .infinity .positive
  := by
  rcases h with rfl | h
  · rfl
  · cases h with
    | zero s => rfl
    | finite s hpos hc he => rfl

/-- Adding a finite number to positive infinity gives positive infinity. -/
theorem infinity_add {u : UnpackedFloat} (h : IsFinite u) :
  add .binary32 (.infinity .positive) u = .infinity .positive
  := by
  cases h with
  | zero s => rfl
  | finite s hpos hc he => rfl

/-- A sum of which one term is infinite. -/
theorem unpack_add_of_infinity {x y : Float32} (hx : IsNumber x) (hxlow : -2 ^ 128 < value x)
    (hy : IsNumber y) (hylow : -2 ^ 128 < value y) (h : ¬(IsRational x ∧ IsRational y)) :
  (x + y).toModel.unpack = .infinity .positive
  := by
  have hpack : unpack .binary32 (pack .binary32 (.infinity .positive)) = .infinity .positive :=
    unpack_packedInfinity .positive
  rw [unpack_add]
  rcases hy.cases hylow with hy' | hy'
  · rw [hy', add_infinity (hx.cases hxlow), hpack]
  · rcases hx.cases hxlow with hx' | hx'
    · rw [hx', infinity_add hy', hpack]
    · apply absurd ⟨hx', hy'⟩ h

/-- What is unpacked to an ordered form is a number. -/
theorem isNumber_of_unpack {x : Float32} (h : IsOrdered x.toModel.unpack) :
  IsNumber x
  := by
  apply (isNumber_or x).resolve_right
  intro hx
  rw [hx] at h
  cases h with
  | finite hu => cases hu

theorem unpack_zero :
  (0.0 : Float32).toModel.unpack = .zero .positive
  := by
  rfl

theorem isNumber_zero :
  IsNumber 0.0
  := by
  rfl

theorem value_zero :
  value 0.0 = 0
  := by
  rw [value, unpack_zero, exactValue_zero]

/-- At least zero are the numbers whose value is at least zero. -/
theorem zero_le_iff {x : Float32} :
  0.0 ≤ x ↔ IsNumber x ∧ 0 ≤ value x
  := by
  rw [le_iff, value_zero]
  constructor
  · intro h
    exact h.2
  · intro h
    exact ⟨isNumber_zero, h⟩

/-- Above negative infinity are the numbers whose value is above its value. -/
theorem infinite_lt_iff {x : Float32} :
  -infinite < x ↔ IsNumber x ∧ -2 ^ 128 < value x
  := by
  have hunpack : (-infinite).toModel.unpack = .infinity .negative := by rfl
  have hnumber : IsNumber (-infinite) := by rfl
  rw [lt_iff, value, hunpack, exactValue_infinity, signed]
  constructor
  · intro h
    exact h.2
  · intro h
    exact ⟨hnumber, h⟩

theorem infinite_lt_zero :
  -infinite < 0.0
  := by
  rw [infinite_lt_iff, value_zero]
  exact ⟨isNumber_zero, by norm_num⟩

/-- What is not negative is above negative infinity. -/
theorem infinite_lt_of_nonneg {x : Float32} (h : 0.0 ≤ x) :
  -infinite < x
  := by
  obtain ⟨hx, hnonneg⟩ := zero_le_iff.mp h
  apply infinite_lt_iff.mpr ⟨hx, by linarith⟩

/-- Adding what is not negative does not make a number less. -/
theorem le_add {x y : Float32} (hx : -infinite < x) (hy : 0.0 ≤ y) :
  x ≤ x + y
  := by
  obtain ⟨hx, hlow⟩ := infinite_lt_iff.mp hx
  obtain ⟨hynum, hynonneg⟩ := zero_le_iff.mp hy
  by_cases h : IsRational x ∧ IsRational y
  · apply hx.isNearest.le (isNearest_add h.1 h.2)
    linarith
  · have hsum := unpack_add_of_infinity hx hlow hynum (by linarith) h
    apply le_of_value hx
    · apply isNumber_of_unpack
      rw [hsum]
      apply IsOrdered.infinity
    · have hvalue : value (x + y) = 2 ^ 128 := by
        rw [value, hsum]
        rfl
      rw [hvalue]
      apply (abs_le.mp hx.abs_value_le).2

/-- Adding a number to zero does not make it negative infinity. -/
theorem zero_add_infinite_lt {x : Float32} (h : -infinite < x) :
  -infinite < 0.0 + x
  := by
  obtain ⟨hx, hlow⟩ := infinite_lt_iff.mp h
  have hzero : IsRational 0.0 := by
    rw [IsRational, unpack_zero]
    apply IsFinite.zero
  rw [infinite_lt_iff]
  rcases hx.cases hlow with hinf | hrational
  · have hsum : (0.0 + x).toModel.unpack = .infinity .positive := by
      apply unpack_add_of_infinity isNumber_zero (by norm_num [value_zero]) hx hlow
      rintro ⟨-, hrational⟩
      rw [IsRational, hinf] at hrational
      cases hrational
    constructor
    · apply isNumber_of_unpack
      rw [hsum]
      apply IsOrdered.infinity
    · rw [value, hsum, exactValue_infinity, signed]
      norm_num
  · have hsum := isNearest_add hzero hrational
    rw [value_zero, zero_add] at hsum
    use hsum.isNumber
    rwa [hsum.value_eq, ← hx.isNearest.value_eq]

/-- A sum of two numbers that are not negative is nearest to the sum of their values, infinite
numbers included. -/
theorem isNearest_add_of_nonneg {x y : Float32} (hx : 0.0 ≤ x) (hy : 0.0 ≤ y) :
  IsNearest (x + y) (value x + value y)
  := by
  obtain ⟨hx, hxnonneg⟩ := zero_le_iff.mp hx
  obtain ⟨hy, hynonneg⟩ := zero_le_iff.mp hy
  by_cases h : IsRational x ∧ IsRational y
  · apply isNearest_add h.1 h.2
  · have hsum := unpack_add_of_infinity hx (by linarith) hy (by linarith) h
    have hlarge : 2 ^ 128 ≤ value x + value y := by
      by_contra! hless
      apply h
      constructor
      · apply hx.isRational
        rw [abs_of_nonneg hxnonneg]
        linarith
      · apply hy.isRational
        rw [abs_of_nonneg hynonneg]
        linarith
    apply isNearest_of_infinity _ hsum
    rw [← rounded_of_isSingle (isSingle_two_pow (k := 128))]
    apply rounded_mono hlarge

/-- Sums of numbers that are not negative are not negative. -/
theorem nonneg_add {x y : Float32} (hx : 0.0 ≤ x) (hy : 0.0 ≤ y) :
  0.0 ≤ x + y
  := by
  apply Single.le_trans hx
  apply le_add (infinite_lt_of_nonneg hx) hy

/-- Sums of numbers that are not negative stand in the order of their terms. -/
theorem add_le_add_of_nonneg {x y z : Float32} (hx : 0.0 ≤ x) (hxy : x ≤ y) (hz : 0.0 ≤ z) :
  x + z ≤ y + z
  := by
  apply (isNearest_add_of_nonneg hx hz).le
    (isNearest_add_of_nonneg (Single.le_trans hx hxy) hz)
  have hle := (le_iff.mp hxy).2.2
  linarith

/-- Products of finite numbers that are not negative are not negative. -/
theorem nonneg_mul {x y : Float32} (hx : IsRational x) (hx' : 0.0 ≤ x) (hy : IsRational y)
    (hy' : 0.0 ≤ y) :
  0.0 ≤ x * y
  := by
  have hzero := isNumber_zero.isNearest
  rw [value_zero] at hzero
  apply hzero.le (isNearest_mul hx hy)
  apply mul_nonneg (zero_le_iff.mp hx').2 (zero_le_iff.mp hy').2

/-! ### Unsigned sums -/

/-- What is rounded without a sign has no sign when it is packed and unpacked. -/
theorem isUnsigned_of_isRounding {u : UnpackedFloat} {x : ℚ} (h : IsRounding u .positive x) :
  IsUnsigned (unpack .binary32 (pack .binary32 u))
  := by
  cases h with
  | zero hzero =>
    rw [show unpack .binary32 (pack .binary32 (.zero .positive)) = .zero .positive from
      unpack_packedZero]
    apply HasSign.zero
  | @finite _ m e _ hpos hc hvalue =>
    rcases le_or_gt e 104 with he | he
    · rw [unpack_pack hpos hc he]
      apply HasSign.finite hpos hc he
    · rw [unpack_pack_of_large hpos (by omega)]
      apply HasSign.infinity

/-- A positive mantissa is normalized to a number without a sign. -/
theorem isRounding_normalize {m : ℤ} (hm : 0 < m) (e : ℤ) (s : Sign) :
  IsRounding (UnpackedFloat.normalize .binary32 m e s) .positive (m.toNat * 2 ^ e)
  := by
  unfold UnpackedFloat.normalize
  rw [compare_gt_iff_gt.mpr hm]
  apply isRounding_round
  omega

/-- A number whose value is not negative is a zero or has no sign. -/
theorem IsUnsigned.cases_of_nonneg {u : UnpackedFloat} (h : IsOrdered u) (hu : 0 ≤ exactValue u) :
  (∃ s, u = .zero s) ∨ IsUnsigned u
  := by
  cases h with
  | infinity s => cases s with
    | negative => norm_num [signed] at hu
    | positive =>
      right
      apply HasSign.infinity
  | finite hf => cases hf with
    | zero s =>
      left
      use s
    | @finite s m e hpos hc he => cases s with
      | negative =>
        have hlt : (0 : ℚ) < m * 2 ^ e := by positivity
        simp only [exactValue_finite, signed] at hu
        linarith
      | positive =>
        right
        apply HasSign.finite hpos hc he

/-- A number is unpacked as it was packed. -/
theorem HasSign.unpack_pack_eq {s : Sign} {u : UnpackedFloat} (h : HasSign s u) :
  unpack .binary32 (pack .binary32 u) = u
  := by
  cases h with
  | infinity => apply unpack_packedInfinity
  | zero => apply unpack_packedZero
  | finite hpos hc he => apply unpack_pack hpos hc he

/-- Adding a zero of any sign does not change an unsigned number. -/
theorem IsUnsigned.add_zero {u : UnpackedFloat} (h : IsUnsigned u) (s : Sign) :
  add .binary32 u (.zero s) = u
  := by
  cases h with
  | infinity => rfl
  | zero => cases s with
    | negative => rfl
    | positive => rfl
  | finite => rfl

/-- Adding an unsigned number to zero gives this number. -/
theorem IsUnsigned.zero_add {u : UnpackedFloat} (h : IsUnsigned u) :
  add .binary32 (.zero .positive) u = u
  := by
  cases h with
  | infinity => rfl
  | zero => rfl
  | finite => rfl

/-- Adding an unsigned number to infinity gives infinity. -/
theorem IsUnsigned.infinity_add {u : UnpackedFloat} (h : IsUnsigned u) :
  add .binary32 (.infinity .positive) u = .infinity .positive
  := by
  cases h with
  | infinity => rfl
  | zero => rfl
  | finite => rfl

/-- Adding infinity to an unsigned number gives infinity. -/
theorem IsUnsigned.add_infinity {u : UnpackedFloat} (h : IsUnsigned u) :
  add .binary32 u (.infinity .positive) = .infinity .positive
  := by
  cases h with
  | infinity => rfl
  | zero => rfl
  | finite => rfl

/-- The sum of unsigned numbers is unsigned, and so it is when the second term is a negative
zero. -/
theorem IsUnsigned.add {u v : UnpackedFloat} (hu : IsUnsigned u)
    (hv : (∃ s, v = .zero s) ∨ IsUnsigned v) :
  IsUnsigned (unpack .binary32 (pack .binary32 (add .binary32 u v)))
  := by
  rcases hv with ⟨s, rfl⟩ | hv
  · rw [hu.add_zero, hu.unpack_pack_eq]
    apply hu
  have hu' := hu
  have hv' := hv
  cases hu with
  | infinity =>
    rw [hv'.infinity_add, HasSign.infinity.unpack_pack_eq]
    apply HasSign.infinity
  | zero =>
    rw [hv'.zero_add, hv'.unpack_pack_eq]
    apply hv'
  | @finite m e hpos hc he => cases hv with
    | infinity =>
      rw [hu'.add_infinity, HasSign.infinity.unpack_pack_eq]
      apply HasSign.infinity
    | zero =>
      rw [hu'.add_zero, hu'.unpack_pack_eq]
      apply hu'
    | @finite n d hpos' hc' he' =>
      -- Both terms are above zero, and so is the sum that is rounded.
      apply isUnsigned_of_isRounding
      apply isRounding_normalize
      have hm := decreaseExponent_fst_pos hpos e (min e d)
      have hn := decreaseExponent_fst_pos hpos' d (min e d)
      apply Int.add_pos
      · apply Int.natCast_pos.mpr hm
      · apply Int.natCast_pos.mpr hn

/-- What is written without a sign is at least zero. -/
theorem nonneg_of_isUnsigned {x : Float32} (h : IsUnsigned x.toModel.unpack) :
  0.0 ≤ x
  := by
  apply zero_le_iff.mpr
  constructor
  · exact h.isNaN_eq
  · unfold value
    generalize x.toModel.unpack = u at h
    cases h with
    | infinity => norm_num [signed]
    | zero => simp
    | finite hpos hc he =>
      simp only [exactValue_finite, signed]
      positivity

theorem isUnsigned_zero :
  IsUnsigned (0.0 : Float32).toModel.unpack
  := by
  rw [unpack_zero]
  apply HasSign.zero

/-- A sum of an unsigned number and one that is not negative is unsigned. -/
theorem isUnsigned_add {x y : Float32} (hx : IsUnsigned x.toModel.unpack) (hy : 0.0 ≤ y) :
  IsUnsigned (x + y).toModel.unpack
  := by
  obtain ⟨hynum, hynonneg⟩ := zero_le_iff.mp hy
  rw [unpack_add]
  apply hx.add
  apply IsUnsigned.cases_of_nonneg hynum.isOrdered hynonneg

/-! ### Integers -/

/-- A natural number of at most 24 binary digits is not changed by rounding. -/
theorem rounded_natCast {n : ℕ} (h : n ≤ 2 ^ 24) :
  rounded n = n
  := by
  have hsingle : IsSingle ((n : ℤ) : ℚ) := by
    apply isSingle_intCast
    rw [abs_of_nonneg (by omega)]
    omega
  rw [Int.cast_natCast] at hsingle
  apply rounded_of_isSingle hsingle

/-- A word of 64 bits becomes the number that is nearest to it. -/
theorem isNearest_toFloat32 (n : UInt64) :
  IsNearest n.toFloat32 n.toNat
  := by
  have h := isNearest_pack (roundsTo_normalize (n.toNat : ℤ) 0 .positive)
  rw [zpow_zero, mul_one, Int.cast_natCast] at h
  exact h

/-- One is finite and has the value one. -/
theorem value_one :
  IsRational (Float32.ofBits 0x3F800000) ∧ value (Float32.ofBits 0x3F800000) = 1
  := by
  have hunpack : (Float32.ofBits 0x3F800000).toModel.unpack
      = .finite .positive (2 ^ 23) (-23) (by norm_num) := by rfl
  have hc : IsCanonical (2 ^ 23) (-23) := ⟨by norm_num, by norm_num, Or.inr le_rfl⟩
  constructor
  · rw [IsRational, hunpack]
    apply IsFinite.finite _ _ hc (by norm_num)
  · rw [value, hunpack, exactValue_finite, signed]
    norm_num

/-- A natural number with fewer than 24 binary digits becomes the number nearest to it. -/
theorem isNearest_ofNat_of_lt {n : ℕ} (h : n < 2 ^ 23) :
  IsNearest (Float32.ofNat n) n
  := by
  have hnat : Float32.ofNat n = n.toUInt64.toFloat32 * Float32.ofBits 0x3F800000 := by
    unfold Float32.ofNat
    exact dif_pos ⟨h, by norm_num⟩
  have hcast : n.toUInt64.toNat = n := by
    rw [Nat.toUInt64, UInt64.toNat_ofNat']
    omega
  have hfirst := isNearest_toFloat32 n.toUInt64
  rw [hcast] at hfirst
  have hround := rounded_natCast (h.le.trans (by norm_num))
  have hlt : |rounded (n : ℚ)| < 2 ^ 128 := by
    rw [hround, Nat.abs_cast]
    exact_mod_cast h.trans (by norm_num)
  obtain ⟨hrational, hvalue⟩ := hfirst.value_of_abs_lt hlt
  have hproduct := isNearest_mul hrational value_one.1
  rw [hvalue, value_one.2, mul_one, hround] at hproduct
  rw [hnat]
  apply hproduct

/-- A natural number with at least 24 binary digits becomes the number nearest to it, too. -/
theorem isNearest_ofNat_of_ge {n : ℕ} (h : 2 ^ 23 ≤ n) :
  IsNearest (Float32.ofNat n) n
  := by
  have hpos : n ≠ 0 := by
    have : 0 < n := lt_of_lt_of_le (by norm_num) h
    omega
  -- The number is read as a decimal one, shifted to have enough bits for rounding.
  have hnat : Float32.ofNat n = .ofModel (.pack (roundWithAccuracy .binary32 .positive
      (n <<< 24 * 10 ^ 0) (-24 + 0) .exact)) := by
    unfold Float32.ofNat
    refine (dif_neg ?_).trans ?_
    · rw [not_and_or]
      left
      omega
    · change Float32.ofModel (.pack (ofScientific .binary32 n 0)) = _
      rw [ofScientific, dif_neg hpos, if_neg (by norm_num [Format.binary32]),
        if_neg (by norm_num [Format.binary32]), if_pos le_rfl]
      rfl
  have hvalue : ((n <<< 24 * 10 ^ 0 : ℕ) : ℚ) * 2 ^ (-24 + 0 : ℤ) = n := by
    rw [Nat.shiftLeft_eq]
    push_cast
    norm_num
    ring
  rw [hnat]
  apply isNearest_pack
  use .positive, n, by positivity, rfl
  rw [← hvalue]
  apply isRounding_roundWithAccuracy_exact
  · rw [Nat.shiftLeft_eq]
    omega
  · rw [targetExponent_binary32, totalExponent]
    have hlog : 24 ≤ (n <<< 24 * 10 ^ 0).log2 := by
      apply (Nat.le_log2 _).mpr
      · rw [Nat.shiftLeft_eq]
        omega
      · rw [Nat.shiftLeft_eq]
        omega
    omega

/-- A natural number is turned into the number nearest to it. -/
theorem isNearest_ofNat (n : ℕ) :
  IsNearest (Float32.ofNat n) n
  := by
  rcases lt_or_ge n (2 ^ 23) with h | h
  · apply isNearest_ofNat_of_lt h
  · apply isNearest_ofNat_of_ge h

/-- Natural numbers of at most 24 binary digits are exact. -/
theorem value_ofNat {n : ℕ} (h : n ≤ 2 ^ 24) :
  IsRational (Float32.ofNat n) ∧ value (Float32.ofNat n) = n
  := by
  have hround := rounded_natCast h
  have hlt : |rounded (n : ℚ)| < 2 ^ 128 := by
    rw [hround, Nat.abs_cast]
    exact_mod_cast lt_of_le_of_lt h (by norm_num)
  obtain ⟨hrational, hvalue⟩ := (isNearest_ofNat n).value_of_abs_lt hlt
  rw [hround] at hvalue
  exact ⟨hrational, hvalue⟩

/-- No natural number becomes a negative number. -/
theorem nonneg_ofNat (n : ℕ) :
  0.0 ≤ Float32.ofNat n
  := by
  have hzero := isNumber_zero.isNearest
  rw [value_zero] at hzero
  apply hzero.le (isNearest_ofNat n)
  positivity

/-- A natural number of at most 24 binary digits is neither rounded nor confined. -/
theorem confined_natCast {n : ℕ} (h : n ≤ 2 ^ 24) :
  confined n = n
  := by
  have hround := rounded_natCast h
  rw [confined_of_abs_le, hround]
  rw [hround, Nat.abs_cast]
  exact_mod_cast h.trans (by norm_num)

/-- What is at most a natural number of 24 binary digits is so after rounding, too. -/
theorem IsNearest.value_le {f : Float32} {x : ℚ} {n : ℕ} (hf : IsNearest f x) (hx : x ≤ n)
    (hn : n ≤ 2 ^ 24) :
  value f ≤ n
  := by
  rw [hf.value_eq, ← confined_natCast hn]
  apply confined_mono hx

end DiagramLayout.Single
