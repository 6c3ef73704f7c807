import DiagramLayout.Proofs.Single.Arithmetic
import DiagramLayout.Single.Order
import DiagramLayout.Single.Rounding

/-!
# Values of single-precision numbers

The value of a number is rational; an infinite number has the value from which on numbers are
infinite. Numbers compare as their values do, and `rank` places the numbers that have no sign in the
order of their values.
-/

namespace DiagramLayout.Single

open Float.Model (Format UnpackedFloat)
open Float.Model.UnpackedFloat

/-- The form in which numbers, infinite ones included, are unpacked. -/
inductive IsOrdered : UnpackedFloat → Prop
  | infinity (s : Sign) : IsOrdered (.infinity s)
  | finite {u : UnpackedFloat} : IsFinite u → IsOrdered u

/-- The value of a number. -/
def value (x : Float32) : ℚ :=
  exactValue x.toModel.unpack

/-- What is a number, maybe an infinite one. -/
def IsNumber (x : Float32) : Prop :=
  x.isNaN = false

instance : DecidablePred IsNumber :=
  fun x => inferInstanceAs (Decidable (x.isNaN = false))

/-- Bits that are unpacked to a finite form are those of a finite number. -/
theorem isFinite_unpack {b : BitVec 32} {u : UnpackedFloat} (h : unpack .binary32 b = u)
    (hu : u.isFinite = true) :
  IsFinite u
  := by
  cases u with
  | infinity s => contradiction
  | notANumber => contradiction
  | zero s => apply IsFinite.zero
  | finite s m e hpos =>
    obtain ⟨hc, he⟩ := isCanonical_of_unpack h
    apply IsFinite.finite s hpos hc he

/-- Numbers are unpacked to an ordered form. -/
theorem IsNumber.isOrdered {x : Float32} (h : IsNumber x) :
  IsOrdered x.toModel.unpack
  := by
  change x.toModel.unpack.isNaN = false at h
  cases hu : x.toModel.unpack with
  | notANumber =>
    rw [hu] at h
    contradiction
  | infinity s => apply IsOrdered.infinity
  | zero s => apply IsOrdered.finite (IsFinite.zero s)
  | finite s m e hpos => apply IsOrdered.finite (isFinite_unpack hu rfl)

/-! ### Bounds -/

/-- Canonical forms with exponents up to 104 are below the value of infinite numbers. -/
theorem mul_two_zpow_lt {m : ℕ} {e : ℤ} (hc : IsCanonical m e) (he : e ≤ 104) :
  (m : ℚ) * 2 ^ e < 2 ^ 128
  := by
  have hm : (m : ℚ) < 2 ^ 24 := by exact_mod_cast hc.lt
  have hpow : (2 : ℚ) ^ e ≤ 2 ^ (104 : ℤ) := zpow_le_zpow_right₀ (by norm_num) he
  calc (m : ℚ) * 2 ^ e < 2 ^ 24 * 2 ^ e := by gcongr
    _ ≤ 2 ^ 24 * 2 ^ (104 : ℤ) := by gcongr
    _ = 2 ^ 128 := by norm_num

theorem abs_signed (s : Sign) (x : ℚ) :
  |signed s x| = |x|
  := by
  cases s with
  | negative => exact abs_neg x
  | positive => rfl

/-- Finite numbers are below infinite ones. -/
theorem IsFinite.abs_exactValue_lt {u : UnpackedFloat} (h : IsFinite u) :
  |exactValue u| < 2 ^ 128
  := by
  cases h with
  | zero s => norm_num
  | finite s hpos hc he =>
    rw [exactValue_finite, abs_signed, abs_of_nonneg (by positivity)]
    apply mul_two_zpow_lt hc he

/-! ### The order -/

/-- Of two canonical forms the one with the less exponent is less. -/
theorem mul_two_zpow_lt_of_lt {m n : ℕ} {e d : ℤ} (hm : IsCanonical m e) (hn : IsCanonical n d)
    (h : e < d) :
  (m : ℚ) * 2 ^ e < n * 2 ^ d
  := by
  have hlow := hm.low
  have hm' : (m : ℚ) < 2 ^ 24 := by exact_mod_cast hm.lt
  have hn' : (2 : ℚ) ^ 23 ≤ n := by exact_mod_cast hn.normal.resolve_left (by omega)
  have hpow : (2 : ℚ) ^ (e + 1) ≤ 2 ^ d := zpow_le_zpow_right₀ (by norm_num) (by omega)
  calc (m : ℚ) * 2 ^ e < 2 ^ 24 * 2 ^ e := by gcongr
    _ = 2 ^ 23 * 2 ^ (e + 1) := by
        rw [zpow_add₀ (by norm_num)]
        norm_num
        ring
    _ ≤ n * 2 ^ d := by gcongr

/-- Canonical forms compare by their exponents and then by their mantissas. -/
theorem compare_canonical {m n : ℕ} {e d : ℤ} (hm : IsCanonical m e) (hn : IsCanonical n d) :
  (compare e d).then (compare m n) = compare ((m : ℚ) * 2 ^ e) (n * 2 ^ d)
  := by
  rcases lt_trichotomy e d with hlt | rfl | hgt
  · rw [compare_lt_iff_lt.mpr hlt, compare_lt_iff_lt.mpr (mul_two_zpow_lt_of_lt hm hn hlt)]
    rfl
  · have hpos : (0 : ℚ) < 2 ^ e := by positivity
    rw [compare_eq_iff_eq.mpr rfl]
    rcases lt_trichotomy m n with hlt | rfl | hgt
    · have hmul : (m : ℚ) * 2 ^ e < n * 2 ^ e := by gcongr
      rw [compare_lt_iff_lt.mpr hlt, compare_lt_iff_lt.mpr hmul]
      rfl
    · rw [compare_eq_iff_eq.mpr rfl, compare_eq_iff_eq.mpr rfl]
      rfl
    · have hmul : (n : ℚ) * 2 ^ e < m * 2 ^ e := by gcongr
      rw [compare_gt_iff_gt.mpr hgt, compare_gt_iff_gt.mpr hmul]
      rfl
  · rw [compare_gt_iff_gt.mpr hgt, compare_gt_iff_gt.mpr (mul_two_zpow_lt_of_lt hn hm hgt)]
    rfl

/-- Opposites compare the other way round. -/
theorem compare_neg_neg (x y : ℚ) :
  compare (-x) (-y) = (compare x y).swap
  := by
  rcases lt_trichotomy x y with hlt | rfl | hgt
  · rw [compare_lt_iff_lt.mpr hlt, compare_gt_iff_gt.mpr (neg_lt_neg hlt)]
    rfl
  · rw [compare_eq_iff_eq.mpr rfl, compare_eq_iff_eq.mpr rfl]
    rfl
  · rw [compare_gt_iff_gt.mpr hgt, compare_lt_iff_lt.mpr (neg_lt_neg hgt)]
    rfl

/-- Finite numbers compare as their values. -/
theorem IsFinite.compare_eq {u v : UnpackedFloat} (hu : IsFinite u) (hv : IsFinite v) :
  u.compare v = some (compare (exactValue u) (exactValue v))
  := by
  cases hu with
  | zero s => cases hv with
    | zero t =>
      simp only [UnpackedFloat.compare, exactValue_zero]
      rw [compare_eq_iff_eq.mpr rfl]
    | @finite t n d hn hc he =>
      have hpos : (0 : ℚ) < n * 2 ^ d := by positivity
      cases t with
      | negative => exact congrArg some (compare_gt_iff_gt.mpr (neg_lt_zero.mpr hpos)).symm
      | positive => exact congrArg some (compare_lt_iff_lt.mpr hpos).symm
  | @finite s m e hm hc he =>
    have hpos : (0 : ℚ) < m * 2 ^ e := by positivity
    cases hv with
    | zero t => cases s with
      | negative => exact congrArg some (compare_lt_iff_lt.mpr (neg_lt_zero.mpr hpos)).symm
      | positive => exact congrArg some (compare_gt_iff_gt.mpr hpos).symm
    | @finite t n d hn hc' he' =>
      have hpos' : (0 : ℚ) < n * 2 ^ d := by positivity
      cases s with
      | negative => cases t with
        | negative =>
          simp only [UnpackedFloat.compare, exactValue_finite, signed]
          rw [compare_neg_neg, compare_canonical hc hc']
        | positive =>
          exact congrArg some (compare_lt_iff_lt.mpr ((neg_lt_zero.mpr hpos).trans hpos')).symm
      | positive => cases t with
        | negative =>
          exact congrArg some (compare_gt_iff_gt.mpr ((neg_lt_zero.mpr hpos').trans hpos)).symm
        | positive =>
          simp only [UnpackedFloat.compare, exactValue_finite, signed]
          rw [compare_canonical hc hc']

/-- A finite number compares with an infinite one as their values do. -/
theorem compare_infinity {u : UnpackedFloat} (hu : IsFinite u) (s : Sign) :
  u.compare (.infinity s) = some (compare (exactValue u) (signed s (2 ^ 128)))
  := by
  obtain ⟨hlow, hhigh⟩ := abs_lt.mp hu.abs_exactValue_lt
  cases s with
  | negative =>
    rw [signed, compare_gt_iff_gt.mpr hlow]
    cases hu with
    | zero t => rfl
    | finite t hpos hc he => rfl
  | positive =>
    rw [signed, compare_lt_iff_lt.mpr hhigh]
    cases hu with
    | zero t => rfl
    | finite t hpos hc he => rfl

/-- An infinite number compares with a finite one as their values do. -/
theorem infinity_compare {u : UnpackedFloat} (hu : IsFinite u) (s : Sign) :
  UnpackedFloat.compare (.infinity s) u = some (compare (signed s (2 ^ 128)) (exactValue u))
  := by
  obtain ⟨hlow, hhigh⟩ := abs_lt.mp hu.abs_exactValue_lt
  cases s with
  | negative =>
    rw [signed, compare_lt_iff_lt.mpr hlow]
    cases hu with
    | zero t => rfl
    | finite t hpos hc he => rfl
  | positive =>
    rw [signed, compare_gt_iff_gt.mpr hhigh]
    cases hu with
    | zero t => rfl
    | finite t hpos hc he => rfl

/-- Numbers compare as their values. -/
theorem IsOrdered.compare_eq {u v : UnpackedFloat} (hu : IsOrdered u) (hv : IsOrdered v) :
  u.compare v = some (compare (exactValue u) (exactValue v))
  := by
  cases hu with
  | infinity s => cases hv with
    | infinity t =>
      have hlt : -(2 : ℚ) ^ 128 < 2 ^ 128 := by norm_num
      cases s with
      | negative => cases t with
        | negative => exact congrArg some (compare_eq_iff_eq.mpr rfl).symm
        | positive => exact congrArg some (compare_lt_iff_lt.mpr hlt).symm
      | positive => cases t with
        | negative => exact congrArg some (compare_gt_iff_gt.mpr hlt).symm
        | positive => exact congrArg some (compare_eq_iff_eq.mpr rfl).symm
    | finite hv => apply infinity_compare hv
  | finite hu => cases hv with
    | infinity t => apply compare_infinity hu
    | finite hv => apply hu.compare_eq hv

/-- What is not a number has only one form. -/
theorem isNumber_or (x : Float32) :
  IsNumber x ∨ x.toModel.unpack = .notANumber
  := by
  cases hu : x.toModel.unpack with
  | notANumber =>
    right
    rfl
  | infinity s =>
    left
    change x.toModel.unpack.isNaN = false
    rw [hu]
    rfl
  | zero s =>
    left
    change x.toModel.unpack.isNaN = false
    rw [hu]
    rfl
  | finite s m e hpos =>
    left
    change x.toModel.unpack.isNaN = false
    rw [hu]
    rfl

/-- A number is determined by its unpacked form. -/
theorem eq_of_unpack {x y : Float32} (h : x.toModel.unpack = y.toModel.unpack) :
  x = y
  := by
  have hx : pack .binary32 x.toModel.unpack = x.toModel.toBits.toBitVec :=
    pack_unpack_of_valid x.toModel.valid
  have hy : pack .binary32 y.toModel.unpack = y.toModel.toBits.toBitVec :=
    pack_unpack_of_valid y.toModel.valid
  have hbits : x.toModel.toBits = y.toModel.toBits := by
    rw [← UInt32.toBitVec_inj, ← hx, ← hy, h]
  obtain ⟨⟨xbits, hxvalid⟩⟩ := x
  obtain ⟨⟨ybits, hyvalid⟩⟩ := y
  obtain rfl : xbits = ybits := hbits
  rfl

theorem compare_unpack {x y : Float32} (hx : IsNumber x) (hy : IsNumber y) :
  x.toModel.unpack.compare y.toModel.unpack = some (compare (value x) (value y))
  := by
  apply hx.isOrdered.compare_eq hy.isOrdered

/-- Only numbers can be compared. -/
theorem isNumber_of_compare {x y : Float32} {o : Ordering}
    (h : x.toModel.unpack.compare y.toModel.unpack = some o) :
  IsNumber x ∧ IsNumber y
  := by
  constructor
  · apply (isNumber_or x).resolve_right
    intro hx
    rw [hx] at h
    contradiction
  · apply (isNumber_or y).resolve_right
    intro hy
    rw [hy] at h
    cases hu : x.toModel.unpack
    all_goals
      rw [hu] at h
      contradiction

/-- One number is less than another one when its value is less. -/
theorem lt_iff {x y : Float32} :
  x < y ↔ IsNumber x ∧ IsNumber y ∧ value x < value y
  := by
  have hlt : x < y ↔ x.toModel.unpack.compare y.toModel.unpack = some .lt := by
    change decide (x.toModel < y.toModel) = true ↔ _
    rw [decide_eq_true_iff]
    apply beq_iff_eq
  rw [hlt]
  constructor
  · intro h
    obtain ⟨hx, hy⟩ := isNumber_of_compare h
    rw [compare_unpack hx hy, Option.some.injEq, compare_lt_iff_lt] at h
    exact ⟨hx, hy, h⟩
  · intro ⟨hx, hy, h⟩
    rw [compare_unpack hx hy, compare_lt_iff_lt.mpr h]

/-- One number is at most another one when its value is at most that of the other. -/
theorem le_iff {x y : Float32} :
  x ≤ y ↔ IsNumber x ∧ IsNumber y ∧ value x ≤ value y
  := by
  have hle : x ≤ y ↔ (x.toModel.unpack.compare y.toModel.unpack).any (·.isLE) = true := by
    change decide (x.toModel ≤ y.toModel) = true ↔ _
    rw [decide_eq_true_iff]
    rfl
  rw [hle]
  constructor
  · intro h
    cases ho : x.toModel.unpack.compare y.toModel.unpack with
    | none =>
      rw [ho] at h
      contradiction
    | some o =>
      obtain ⟨hx, hy⟩ := isNumber_of_compare ho
      rw [compare_unpack hx hy] at h
      use hx, hy
      apply compare_le_iff_le.mp
      apply Ordering.isLE_iff_ne_gt.mp h
  · intro ⟨hx, hy, h⟩
    rw [compare_unpack hx hy]
    apply Ordering.isLE_iff_ne_gt.mpr
    apply compare_le_iff_le.mpr h

theorem le_of_value {x y : Float32} (hx : IsNumber x) (hy : IsNumber y) (h : value x ≤ value y) :
  x ≤ y
  := by
  apply le_iff.mpr ⟨hx, hy, h⟩

theorem lt_of_value {x y : Float32} (hx : IsNumber x) (hy : IsNumber y) (h : value x < value y) :
  x < y
  := by
  apply lt_iff.mpr ⟨hx, hy, h⟩

protected theorem le_trans {x y z : Float32} (hxy : x ≤ y) (hyz : y ≤ z) :
  x ≤ z
  := by
  obtain ⟨hx, -, hle⟩ := le_iff.mp hxy
  obtain ⟨-, hz, hle'⟩ := le_iff.mp hyz
  apply le_of_value hx hz (hle.trans hle')

/-- Numbers are comparable: when one is not at most another one, it is greater. -/
theorem lt_of_not_le {x y : Float32} (hx : IsNumber x) (hy : IsNumber y) (h : ¬x ≤ y) :
  y < x
  := by
  apply lt_of_value hy hx
  by_contra! hle
  apply h (le_of_value hx hy hle)

/-- When one number is not less than another one, it is at least as great. -/
theorem le_of_not_lt {x y : Float32} (hx : IsNumber x) (hy : IsNumber y) (h : ¬x < y) :
  y ≤ x
  := by
  apply le_of_value hy hx
  by_contra! hlt
  apply h (lt_of_value hx hy hlt)

protected theorem le_of_lt {x y : Float32} (h : x < y) :
  x ≤ y
  := by
  obtain ⟨hx, hy, hlt⟩ := lt_iff.mp h
  apply le_of_value hx hy hlt.le

protected theorem lt_irrefl (x : Float32) :
  ¬x < x
  := by
  intro h
  apply lt_irrefl (value x) (lt_iff.mp h).2.2

protected theorem le_refl {x : Float32} (h : IsNumber x) :
  x ≤ x
  := by
  apply le_of_value h h le_rfl

/-! ### Places in the total order -/

/-- A number that is written with the sign. -/
inductive HasSign (s : Sign) : UnpackedFloat → Prop
  | infinity : HasSign s (.infinity s)
  | zero : HasSign s (.zero s)
  | finite {m : ℕ} {e : ℤ} (hpos : 0 < m) : IsCanonical m e → e ≤ 104 →
      HasSign s (.finite s m e hpos)

/-- A number that is written without a sign. -/
abbrev IsUnsigned : UnpackedFloat → Prop :=
  HasSign .positive

/-- The place of a number among those of its sign, nearer to zero first. -/
def place : UnpackedFloat → ℤ
  | .finite _ m e _ => (e + 149) * 2 ^ 23 + m
  | .infinity _ => 255 * 2 ^ 23
  | _ => 0

/-- What a sign adds to the bits of a number. -/
def signBit : Sign → ℤ
  | .positive => 0
  | .negative => 2 ^ 31

/-- The bits of a number are those of its sign, of its exponent and of its mantissa, in this order. -/
theorem toNat_packComponents (s : Sign) (e : BitVec 8) (m : BitVec 23) :
  ((packComponents .binary32 s e m).toNat : ℤ) = signBit s + (e.toNat * 2 ^ 23 + m.toNat)
  := by
  have htoNat : (packComponents .binary32 s e m).toNat
      = (s.toBitVec.toNat * 2 ^ 8 + e.toNat) * 2 ^ 23 + m.toNat := by
    change ((s.toBitVec ++ e) ++ m).toNat = _
    rw [BitVec.toNat_append, BitVec.toNat_append, ← Nat.shiftLeft_add_eq_or_of_lt m.isLt,
      ← Nat.shiftLeft_add_eq_or_of_lt e.isLt, Nat.shiftLeft_eq, Nat.shiftLeft_eq]
  rw [htoNat]
  cases s with
  | negative =>
    have hbit : Sign.negative.toBitVec.toNat = 1 := rfl
    rw [hbit, signBit]
    omega
  | positive =>
    have hbit : Sign.positive.toBitVec.toNat = 0 := rfl
    rw [hbit, signBit]
    omega

/-- The bits of a number are its place, with its sign in front. -/
theorem toNat_pack {s : Sign} {u : UnpackedFloat} (h : HasSign s u) :
  ((pack .binary32 u).toNat : ℤ) = signBit s + place u
  := by
  cases h with
  | infinity => exact toNat_packComponents s _ _
  | zero => exact toNat_packComponents s _ _
  | @finite m e hpos hc he =>
    have hlow := hc.low
    have hlt := hc.lt
    rcases lt_or_ge m (2 ^ 23) with hm | hm
    · obtain rfl := hc.normal.resolve_right hm.not_ge
      rw [pack_of_subnormal hpos hm, toNat_packComponents, place, BitVec.toNat_ofNat,
        BitVec.toNat_ofNat, Nat.mod_eq_of_lt hm]
      omega
    · rw [pack_of_normal hpos hc hm he, toNat_packComponents, place, BitVec.toNat_ofNat,
        BitVec.toNat_ofNat, Nat.mod_eq_of_lt (show (e + 150).toNat < 2 ^ 8 by omega)]
      omega

/-- The places of finite numbers are between those of zero and of infinity. -/
theorem finitePlace_bounds {m : ℕ} {e : ℤ} (hm : 0 < m) (hc : IsCanonical m e) (he : e ≤ 104) :
  0 < (e + 149) * 2 ^ 23 + (m : ℤ) ∧ (e + 149) * 2 ^ 23 + (m : ℤ) < 255 * 2 ^ 23
  := by
  have hlow := hc.low
  have hlt := hc.lt
  omega

/-- A greater exponent counts for more than any mantissa. -/
theorem finitePlace_lt {m n : ℕ} {e d : ℤ} (hc : IsCanonical m e) (hc' : IsCanonical n d)
    (h : e < d) :
  (e + 149) * 2 ^ 23 + (m : ℤ) < (d + 149) * 2 ^ 23 + n
  := by
  have hlow := hc.low
  have hlt := hc.lt
  have hnormal := hc'.normal
  omega

/-- Finite numbers without sign have their places in the order of their values. -/
theorem finitePlace_lt_iff {m n : ℕ} {e d : ℤ} (hc : IsCanonical m e) (hc' : IsCanonical n d) :
  (e + 149) * 2 ^ 23 + (m : ℤ) < (d + 149) * 2 ^ 23 + n ↔ (m : ℚ) * 2 ^ e < n * 2 ^ d
  := by
  rcases lt_trichotomy e d with hless | rfl | hmore
  · exact iff_of_true (finitePlace_lt hc hc' hless) (mul_two_zpow_lt_of_lt hc hc' hless)
  · have hpos : (0 : ℚ) < 2 ^ e := by positivity
    rw [mul_lt_mul_iff_of_pos_right hpos, Nat.cast_lt]
    omega
  · exact iff_of_false (finitePlace_lt hc' hc hmore).not_gt (mul_two_zpow_lt_of_lt hc' hc hmore).not_gt

/-- Numbers have their places in the order of their absolute values. -/
theorem place_lt_iff {s t : Sign} {u v : UnpackedFloat} (hu : HasSign s u) (hv : HasSign t v) :
  place u < place v ↔ |exactValue u| < |exactValue v|
  := by
  have hfinite : ∀ (m : ℕ) (e : ℤ), |(m : ℚ) * 2 ^ e| = m * 2 ^ e :=
    fun m e => abs_of_nonneg (by positivity)
  have hinfinity : |(2 : ℚ) ^ 128| = 2 ^ 128 := abs_of_pos (by norm_num)
  cases hu with
  | infinity => cases hv with
    | infinity => simp only [exactValue_infinity, abs_signed, place, lt_self_iff_false]
    | zero => norm_num [place, abs_signed]
    | finite hn hc he =>
      simp only [place, exactValue_infinity, exactValue_finite, abs_signed, hfinite, hinfinity]
      exact iff_of_false (finitePlace_bounds hn hc he).2.not_gt (mul_two_zpow_lt hc he).not_gt
  | zero => cases hv with
    | infinity => norm_num [place, abs_signed]
    | zero => simp only [exactValue_zero, place, lt_self_iff_false]
    | finite hn hc he =>
      simp only [place, exactValue_zero, exactValue_finite, abs_signed, hfinite, abs_zero]
      exact iff_of_true (finitePlace_bounds hn hc he).1 (by positivity)
  | finite hm hc he => cases hv with
    | infinity =>
      simp only [place, exactValue_infinity, exactValue_finite, abs_signed, hfinite, hinfinity]
      exact iff_of_true (finitePlace_bounds hm hc he).2 (mul_two_zpow_lt hc he)
    | zero =>
      simp only [place, exactValue_zero, exactValue_finite, abs_signed, hfinite, abs_zero]
      exact iff_of_false (finitePlace_bounds hm hc he).1.not_gt (not_lt_of_ge (by positivity))
    | finite hn hc' he' =>
      simp only [place, exactValue_finite, abs_signed, hfinite]
      exact finitePlace_lt_iff hc hc'

/-- The places are natural numbers below the bit of the sign. -/
theorem place_bounds {s : Sign} {u : UnpackedFloat} (h : HasSign s u) :
  0 ≤ place u ∧ place u < 2 ^ 31
  := by
  cases h with
  | infinity => norm_num [place]
  | zero => norm_num [place]
  | finite hpos hc he =>
    have hbounds := finitePlace_bounds hpos hc he
    simp only [place]
    omega

theorem HasSign.isNaN_eq {s : Sign} {u : UnpackedFloat} (h : HasSign s u) :
  u.isNaN = false
  := by
  cases h with
  | infinity => rfl
  | zero => rfl
  | finite hpos hc he => rfl

/-- A number has the sign that it is written with. -/
theorem HasSign.exactValue_eq {s : Sign} {u : UnpackedFloat} (h : HasSign s u) :
  exactValue u = signed s |exactValue u|
  := by
  have hsigned : ∀ x : ℚ, 0 ≤ x → signed s x = signed s |signed s x| := by
    intro x hx
    rw [abs_signed, abs_of_nonneg hx]
  cases h with
  | infinity =>
    rw [exactValue_infinity]
    apply hsigned _ (by norm_num)
  | zero =>
    rw [exactValue_zero, abs_zero]
    cases s with
    | negative => exact neg_zero.symm
    | positive => rfl
  | finite hpos hc he =>
    rw [exactValue_finite]
    apply hsigned _ (by positivity)

/-- The bits of a number are its place, with its sign in front. -/
theorem toNat_toBits {s : Sign} {x : Float32} (h : HasSign s x.toModel.unpack) :
  (x.toBits.toNat : ℤ) = signBit s + place x.toModel.unpack
  := by
  have hpack : pack .binary32 x.toModel.unpack = x.toModel.toBits.toBitVec :=
    pack_unpack_of_valid x.toModel.valid
  rw [← toNat_pack h, hpack]
  rfl

/-- The rank of an unsigned number is its place. -/
theorem rank_eq_place {x : Float32} (h : IsUnsigned x.toModel.unpack) :
  rank x = place x.toModel.unpack
  := by
  have hnumber : x.isNaN = false := h.isNaN_eq
  have hbits := toNat_toBits h
  obtain ⟨hlow, hhigh⟩ := place_bounds h
  rw [signBit, zero_add] at hbits
  simp only [rank, hnumber, Bool.false_eq_true, if_false]
  rw [if_pos (by omega), hbits]

/-- Numbers with a sign are ranked below zero, the one with the first place right below it. -/
theorem rank_eq_sub_place {x : Float32} (h : HasSign .negative x.toModel.unpack) :
  rank x = -1 - place x.toModel.unpack
  := by
  have hnumber : x.isNaN = false := h.isNaN_eq
  have hbits := toNat_toBits h
  obtain ⟨hlow, hhigh⟩ := place_bounds h
  rw [signBit] at hbits
  simp only [rank, hnumber, Bool.false_eq_true, if_false]
  rw [if_neg (by omega), hbits]
  omega

/-- Unsigned numbers are ranked by their values. -/
theorem rank_lt_iff {x y : Float32} (hx : IsUnsigned x.toModel.unpack)
    (hy : IsUnsigned y.toModel.unpack) :
  rank x < rank y ↔ value x < value y
  := by
  have hx' : |value x| = value x := hx.exactValue_eq.symm
  have hy' : |value y| = value y := hy.exactValue_eq.symm
  rw [rank_eq_place hx, rank_eq_place hy, place_lt_iff hx hy, ← hx', ← hy']
  rfl

/-- Unsigned numbers of one rank have one value. -/
theorem rank_eq_iff {x y : Float32} (hx : IsUnsigned x.toModel.unpack)
    (hy : IsUnsigned y.toModel.unpack) :
  rank x = rank y ↔ value x = value y
  := by
  rw [le_antisymm_iff, le_antisymm_iff, ← not_lt, ← not_lt, ← not_lt, ← not_lt, rank_lt_iff hy hx,
    rank_lt_iff hx hy]

end DiagramLayout.Single
