import DiagramLayout.Proofs.Single.Unpacked

/-!
# Arithmetic on unpacked numbers

Sums, differences, products and quotients of finite unpacked numbers are the exact results, rounded
as `rounded` says.
-/

namespace DiagramLayout.Single

open Float.Model (Format UnpackedFloat totalExponent)
open Float.Model.UnpackedFloat

/-- A number with the sign `s` in front of it. -/
def signed (s : Sign) (x : ℚ) : ℚ :=
  match s with
  | .negative => -x
  | .positive => x

/-- The sign of a product is the product of the signs. -/
theorem signed_mul (s t : Sign) (x y : ℚ) :
  signed s x * signed t y = signed (s * t) (x * y)
  := by
  cases s with
  | negative => cases t with
    | negative => exact neg_mul_neg x y
    | positive => exact neg_mul x y
  | positive => cases t with
    | negative => exact mul_neg x y
    | positive => rfl

/-- The sign of a quotient is the quotient of the signs. -/
theorem signed_div (s t : Sign) (x y : ℚ) :
  signed s x / signed t y = signed (s / t) (x / y)
  := by
  cases s with
  | negative => cases t with
    | negative => exact neg_div_neg_eq x y
    | positive => exact neg_div y x
  | positive => cases t with
    | negative => exact div_neg x
    | positive => rfl

theorem cast_apply (s : Sign) (n : ℤ) :
  ((s.apply n : ℤ) : ℚ) = signed s n
  := by
  cases s with
  | negative => exact Int.cast_neg n
  | positive => rfl

/-- The exact value of an unpacked number. An infinite one counts as the least power of two that is
too large for the format. -/
def exactValue : UnpackedFloat → ℚ
  | .finite s m e _ => signed s (m * 2 ^ e)
  | .infinity s => signed s (2 ^ 128)
  | _ => 0

@[simp]
theorem exactValue_zero (s : Sign) :
  exactValue (.zero s) = 0
  := rfl

@[simp]
theorem exactValue_infinity (s : Sign) :
  exactValue (.infinity s) = signed s (2 ^ 128)
  := rfl

@[simp]
theorem exactValue_finite (s : Sign) (m : ℕ) (e : ℤ) (hpos : 0 < m) :
  exactValue (.finite s m e hpos) = signed s (m * 2 ^ e)
  := rfl

/-- The form in which finite numbers are unpacked. -/
inductive IsFinite : UnpackedFloat → Prop
  | zero (s : Sign) : IsFinite (.zero s)
  | finite (s : Sign) {m : ℕ} {e : ℤ} (hpos : 0 < m) : IsCanonical m e → e ≤ 104 →
      IsFinite (.finite s m e hpos)

/-- The unpacked number `u` is the exact result `x`, rounded. -/
def RoundsTo (u : UnpackedFloat) (x : ℚ) : Prop :=
  ∃ s y, 0 ≤ y ∧ x = signed s y ∧ IsRounding u s y

theorem roundsTo_zero (s : Sign) :
  RoundsTo (.zero s) 0
  := by
  use s, 0, le_rfl
  constructor
  · cases s with
    | negative => exact neg_zero.symm
    | positive => rfl
  · apply IsRounding.zero rounded_zero

/-- Canonical forms are numbers of single precision. -/
theorem isSingle_of_isCanonical {m : ℕ} {e : ℤ} (h : IsCanonical m e) :
  IsSingle (m * 2 ^ e)
  := by
  use m, e
  refine ⟨?_, h.low, by simp⟩
  have hlt := h.lt
  rw [abs_of_nonneg (by omega)]
  omega

/-- A finite number is its own value, rounded. -/
theorem IsFinite.roundsTo {u : UnpackedFloat} (h : IsFinite u) :
  RoundsTo u (exactValue u)
  := by
  cases h with
  | zero s => apply roundsTo_zero
  | @finite s m e hpos hc he =>
    use s, m * 2 ^ e, by positivity, rfl
    apply IsRounding.finite hpos hc
    rw [rounded_of_isSingle (isSingle_of_isCanonical hc)]

/-! ### Rounding a mantissa and an exponent -/

/-- Writing a number with a less exponent does not change it. -/
theorem decreaseExponent_value (m : ℕ) (e t : ℤ) :
  ((decreaseExponent m e t).1 : ℚ) * 2 ^ (decreaseExponent m e t).2 = m * 2 ^ e
  := by
  simp only [decreaseExponent, Nat.shiftLeft_eq]
  push_cast
  rw [mul_assoc, ← zpow_natCast, ← zpow_add₀ (by norm_num)]
  congr 2
  omega

/-- The exponent is decreased to the target, or it is not above it already. -/
theorem decreaseExponent_snd_le (m : ℕ) (e t : ℤ) :
  (decreaseExponent m e t).2 ≤ t
  := by
  simp only [decreaseExponent]
  omega

/-- A mantissa stays positive when its exponent is decreased. -/
theorem decreaseExponent_fst_pos {m : ℕ} (hm : 0 < m) (e t : ℤ) :
  0 < (decreaseExponent m e t).1
  := by
  simp only [decreaseExponent, Nat.shiftLeft_eq]
  positivity

/-- A mantissa whose last place is not below that of its number is rounded correctly. -/
theorem isRounding_roundWithAccuracy_exact {s : Sign} {m : ℕ} {e : ℤ} (hm : 0 < m)
    (he : e ≤ Format.binary32.targetExponent (totalExponent m e)) :
  IsRounding (roundWithAccuracy .binary32 s m e .exact) s (m * 2 ^ e)
  := by
  apply isRounding_roundWithAccuracy (describes_ofMantissaAndAccuracy_exact m) (by positivity) he
  apply lastPlace_mul_two_zpow hm (Int.floor_natCast m)

/-- A positive mantissa and an exponent are rounded correctly. -/
theorem isRounding_round {s : Sign} {m : ℕ} (hm : 0 < m) (e : ℤ) :
  IsRounding (round .binary32 s m e) s (m * 2 ^ e)
  := by
  set t := Format.binary32.targetExponent (totalExponent m e) with ht
  have hpos := decreaseExponent_fst_pos hm e t
  have hvalue := decreaseExponent_value m e t
  have hplace := lastPlace_mul_two_zpow hpos (Int.floor_natCast _) (decreaseExponent m e t).2
  rw [hvalue, lastPlace_mul_two_zpow hm (Int.floor_natCast m), ← ht] at hplace
  change IsRounding (roundWithAccuracy .binary32 s (decreaseExponent m e t).1
    (decreaseExponent m e t).2 .exact) s (m * 2 ^ e)
  rw [← hvalue]
  apply isRounding_roundWithAccuracy_exact hpos
  rw [← hplace]
  apply decreaseExponent_snd_le

/-- An integer mantissa and an exponent are rounded to a number of the sign of the mantissa. -/
theorem roundsTo_normalize (m e : ℤ) (s : Sign) :
  RoundsTo (UnpackedFloat.normalize .binary32 m e s) (m * 2 ^ e)
  := by
  unfold UnpackedFloat.normalize
  rcases lt_trichotomy m 0 with hlt | rfl | hgt
  · rw [compare_lt_iff_lt.mpr hlt]
    use .negative, (-m).toNat * 2 ^ e, by positivity
    constructor
    · have hcast : (((-m).toNat : ℤ) : ℚ) = -m := by
        rw [Int.toNat_of_nonneg (by omega)]
        push_cast
        rfl
      rw [signed, ← Int.cast_natCast (-m).toNat, hcast]
      ring
    · apply isRounding_round
      omega
  · rw [compare_eq_iff_eq.mpr rfl]
    simpa using roundsTo_zero s
  · rw [compare_gt_iff_gt.mpr hgt]
    use .positive, m.toNat * 2 ^ e, by positivity
    constructor
    · have hcast : ((m.toNat : ℤ) : ℚ) = m := by
        rw [Int.toNat_of_nonneg (by omega)]
      rw [signed, ← Int.cast_natCast m.toNat, hcast]
    · apply isRounding_round
      omega

/-! ### Sums and differences -/

/-- The common exponent of a sum lets both terms keep their values. -/
theorem apply_decreaseExponent (s : Sign) (m : ℕ) {e t : ℤ} (h : t ≤ e) :
  ((s.apply (decreaseExponent m e t).1 : ℤ) : ℚ) * 2 ^ t = signed s (m * 2 ^ e)
  := by
  have hvalue := decreaseExponent_value m e t
  have hexp : (decreaseExponent m e t).2 = t := by
    simp only [decreaseExponent]
    omega
  rw [hexp] at hvalue
  rw [cast_apply, Int.cast_natCast]
  cases s with
  | negative =>
    simp only [signed]
    rw [neg_mul, hvalue]
  | positive => exact hvalue

/-- The sum of finite numbers is the rounded sum of their values. -/
theorem roundsTo_add {u v : UnpackedFloat} (hu : IsFinite u) (hv : IsFinite v) :
  RoundsTo (add .binary32 u v) (exactValue u + exactValue v)
  := by
  have hu' := hu.roundsTo
  have hv' := hv.roundsTo
  cases hu with
  | zero s => cases hv with
    | zero t =>
      simp only [add, exactValue_zero, add_zero]
      split_ifs
      · apply roundsTo_zero
      · apply roundsTo_zero
    | finite t hpos hc he =>
      rw [exactValue_zero, zero_add]
      apply hv'
  | @finite s m e hpos hc he => cases hv with
    | zero t =>
      rw [exactValue_zero, add_zero]
      apply hu'
    | @finite t n d hpos' hc' he' =>
      simp only [add, exactValue_finite]
      rw [← apply_decreaseExponent s m (min_le_left e d),
        ← apply_decreaseExponent t n (min_le_right e d), ← add_mul, ← Int.cast_add]
      apply roundsTo_normalize

/-- The opposite of a finite number is finite. -/
theorem IsFinite.neg {u : UnpackedFloat} (h : IsFinite u) :
  IsFinite u.neg
  := by
  cases h with
  | zero s => apply IsFinite.zero
  | finite s hpos hc he => apply IsFinite.finite _ hpos hc he

theorem signed_neg (s : Sign) (x : ℚ) :
  signed (-s) x = -signed s x
  := by
  cases s with
  | negative => exact (neg_neg x).symm
  | positive => rfl

/-- The opposite of a number has the opposite value. -/
theorem exactValue_neg (u : UnpackedFloat) :
  exactValue u.neg = -exactValue u
  := by
  cases u with
  | finite s m e hpos => apply signed_neg
  | infinity s => apply signed_neg
  | notANumber => exact neg_zero.symm
  | zero s => exact neg_zero.symm

/-- Subtracting a finite number is adding its opposite. -/
theorem sub_eq_add {u v : UnpackedFloat} (hu : IsFinite u) (hv : IsFinite v) :
  sub .binary32 u v = add .binary32 u v.neg
  := by
  cases hu with
  | zero s => cases hv with
    | zero t => rfl
    | finite t hpos hc he => rfl
  | finite s hpos hc he => cases hv with
    | zero t => rfl
    | finite t hpos' hc' he' => cases t with
      | negative =>
        simp only [sub, add, UnpackedFloat.neg, Sign.apply, sub_neg_eq_add]
      | positive =>
        simp only [sub, add, UnpackedFloat.neg, Sign.apply, Int.sub_eq_add_neg]

/-- The difference of finite numbers is the rounded difference of their values. -/
theorem roundsTo_sub {u v : UnpackedFloat} (hu : IsFinite u) (hv : IsFinite v) :
  RoundsTo (sub .binary32 u v) (exactValue u - exactValue v)
  := by
  rw [sub_eq_add hu hv, sub_eq_add_neg, ← exactValue_neg]
  apply roundsTo_add hu hv.neg

/-! ### Products and quotients -/

theorem le_log2_mul {m n : ℕ} {k : ℕ} (hm : 2 ^ k ≤ m) (hn : 0 < n) :
  k ≤ (m * n).log2
  := by
  have hpos : 0 < m := (Nat.two_pow_pos k).trans_le hm
  apply (Nat.le_log2 (Nat.mul_pos hpos hn).ne').mpr
  apply hm.trans
  apply Nat.le_mul_of_pos_right m hn

/-- The exact product of two mantissas needs no digits beyond those that it has. -/
theorem le_targetExponent_mul {m n : ℕ} {e d : ℤ} (hm : IsCanonical m e) (hn : IsCanonical n d)
    (hmpos : 0 < m) (hnpos : 0 < n) :
  e + d ≤ Format.binary32.targetExponent (totalExponent (m * n) (e + d))
  := by
  rw [targetExponent_binary32, totalExponent]
  rcases hm.normal with he | hnormal
  · rcases hn.normal with hd | hnormal
    · omega
    · have hlog := le_log2_mul hnormal hmpos
      rw [mul_comm n m] at hlog
      omega
  · have hlog := le_log2_mul hnormal hnpos
    omega

/-- The product of finite numbers is the rounded product of their values. -/
theorem roundsTo_mul {u v : UnpackedFloat} (hu : IsFinite u) (hv : IsFinite v) :
  RoundsTo (mul .binary32 u v) (exactValue u * exactValue v)
  := by
  cases hu with
  | zero s =>
    rw [exactValue_zero, zero_mul]
    cases hv with
    | zero t => apply roundsTo_zero
    | finite t hpos hc he => apply roundsTo_zero
  | @finite s m e hpos hc he => cases hv with
    | zero t =>
      rw [exactValue_zero, mul_zero]
      apply roundsTo_zero
    | @finite t n d hpos' hc' he' =>
      simp only [mul, exactValue_finite]
      use s * t, (m * n : ℕ) * 2 ^ (e + d), by positivity
      constructor
      · rw [signed_mul, zpow_add₀ (by norm_num)]
        push_cast
        congr 1
        ring
      · apply isRounding_roundWithAccuracy_exact (Nat.mul_pos hpos hpos')
        apply le_targetExponent_mul hc hc' hpos hpos'

/-- The residual bits of a fraction tell whether it is at least a half, and whether it is neither zero
nor a half. -/
theorem ofMantissaAndAccuracy_fraction {r n : ℕ} (q : ℕ) (hn : 0 < n) :
  ExtendedMantissa.ofMantissaAndAccuracy q (accuracyOfFraction r n)
    = ⟨q, decide (n ≤ 2 * r), decide ¬(r = 0 ∨ 2 * r = n)⟩
  := by
  unfold accuracyOfFraction
  split_ifs with hr
  · simp [ExtendedMantissa.ofMantissaAndAccuracy, hr, hn.ne']
  · rcases lt_trichotomy (2 * r) n with hlt | heq | hgt
    · rw [compare_lt_iff_lt.mpr hlt]
      simp [ExtendedMantissa.ofMantissaAndAccuracy, hr, hlt, hlt.ne]
    · rw [compare_eq_iff_eq.mpr heq]
      simp [ExtendedMantissa.ofMantissaAndAccuracy, heq]
    · rw [compare_gt_iff_gt.mpr hgt]
      simp [ExtendedMantissa.ofMantissaAndAccuracy, hr, hgt.le, hgt.ne']

/-- The accuracy of a fraction gives the residual bits of a number with this fraction. -/
theorem describes_ofMantissaAndAccuracy_fraction {q r n : ℕ} {x : ℚ} (hn : 0 < n)
    (hfloor : ⌊x⌋ = q) (hfract : Int.fract x = r / n) :
  Describes (.ofMantissaAndAccuracy q (accuracyOfFraction r n)) x
  := by
  have hnpos : (0 : ℚ) < n := by exact_mod_cast hn
  have hhalf : 1 / 2 ≤ Int.fract x ↔ n ≤ 2 * r := by
    rw [hfract, div_le_div_iff₀ (by norm_num) hnpos, one_mul, mul_comm]
    norm_cast
  rw [ofMantissaAndAccuracy_fraction q hn]
  constructor
  case floor => exact hfloor.symm
  case half => rw [hhalf, decide_eq_true_iff]
  case sticky =>
    rw [decide_eq_true_iff, Ne, not_iff_not, fract_two_mul, if_congr hhalf rfl rfl, hfract]
    split_ifs with hle
    · have hscale : 2 * ((r : ℚ) / n) - 1 = (2 * r - n) / n := by field_simp
      rw [hscale, div_eq_zero_iff, sub_eq_zero, or_iff_left hnpos.ne']
      norm_cast
      omega
    · rw [mul_eq_zero, or_iff_right two_ne_zero, div_eq_zero_iff, Nat.cast_eq_zero,
        Nat.cast_eq_zero]
      omega

/-- The lengths of the dividend and the divisor bound the quotient from below. -/
theorem two_zpow_le_quotient {m n : ℕ} (hm : 0 < m) (hn : 0 < n) (e d : ℤ) :
  (2 : ℚ) ^ (totalExponent m e - totalExponent n d - 1) ≤ m * 2 ^ e / (n * 2 ^ d)
  := by
  have hlow : (2 : ℚ) ^ (m.log2 : ℤ) ≤ m := by
    rw [zpow_natCast]
    exact_mod_cast Nat.log2_self_le hm.ne'
  have hhigh : (n : ℚ) ≤ 2 ^ ((n.log2 : ℤ) + 1) := by
    rw [← Nat.cast_succ, zpow_natCast]
    exact_mod_cast Nat.lt_log2_self.le
  have hexp : totalExponent m e - totalExponent n d - 1 = m.log2 + e - (n.log2 + 1 + d) := by
    unfold totalExponent
    omega
  rw [hexp, zpow_sub₀ (by norm_num), zpow_add₀ (by norm_num), zpow_add₀ (by norm_num) (_ + 1)]
  gcongr

/-- An exact quotient is below the power of two behind the first digit of the integer quotient. -/
theorem quotient_lt_two_zpow (k n : ℕ) (t : ℤ) :
  (k : ℚ) / n * 2 ^ t < 2 ^ totalExponent (k / n) t
  := by
  have hfloor : ⌊(k : ℚ) / n⌋ = ((k / n : ℕ) : ℤ) := Rat.floor_natCast_div_natCast k n
  have hlt := Int.lt_floor_add_one ((k : ℚ) / n)
  rw [hfloor, Int.cast_natCast] at hlt
  have hnext : ((k / n : ℕ) : ℚ) + 1 ≤ 2 ^ (((k / n).log2 : ℤ) + 1) := by
    rw [← Nat.cast_succ ((k / n).log2), zpow_natCast]
    exact_mod_cast Nat.lt_log2_self
  rw [totalExponent, zpow_add₀ (by norm_num)]
  apply mul_lt_mul_of_pos_right (hlt.trans_le hnext) (by positivity)

/-- The last place of a quotient of which enough digits are known. -/
theorem lastPlace_quotient {k n : ℕ} {t : ℤ} (hk : 0 < k) (hn : 0 < n)
    (ht : t ≤ Format.binary32.targetExponent (totalExponent (k / n) t)) :
  lastPlace (k / n * 2 ^ t) = Format.binary32.targetExponent (totalExponent (k / n) t)
  := by
  rcases (k / n).eq_zero_or_pos with hzero | hpos
  · -- A quotient below the least positive number.
    have hlt := quotient_lt_two_zpow k n t
    rw [hzero, targetExponent_binary32] at ht
    rw [hzero] at hlt
    rw [hzero, targetExponent_binary32]
    simp only [totalExponent, Nat.log2_zero] at ht hlt ⊢
    rw [max_eq_right (by omega)]
    apply lastPlace_eq le_rfl (by positivity) _ (Or.inl rfl)
    rw [abs_of_pos (by positivity)]
    apply hlt.trans_le
    apply zpow_le_zpow_right₀ (by norm_num)
    omega
  · apply lastPlace_mul_two_zpow hpos (Rat.floor_natCast_div_natCast k n)

/-- The exponent of a quotient leaves its mantissa enough digits to be rounded. -/
theorem isRounding_divCore {s : Sign} {m n : ℕ} (hm : 0 < m) (hn : 0 < n) (e d : ℤ) :
  IsRounding (roundWithAccuracy .binary32 s (divCore .binary32 m e n d).1
    (divCore .binary32 m e n d).2.1 (divCore .binary32 m e n d).2.2) s (m * 2 ^ e / (n * 2 ^ d))
  := by
  set t := min (e - d)
    (Format.binary32.targetExponent (totalExponent m e - totalExponent n d)) with ht
  set k := m <<< (e - d - t).toNat with hk
  change IsRounding (roundWithAccuracy .binary32 s (k / n) t (accuracyOfFraction (k % n) n)) s _
  rw [targetExponent_binary32] at ht
  have hkpos : 0 < k := by
    rw [hk, Nat.shiftLeft_eq]
    positivity
  clear_value k t
  have hvalue : (m : ℚ) * 2 ^ e / (n * 2 ^ d) = k / n * 2 ^ t := by
    rw [hk, Nat.shiftLeft_eq]
    push_cast
    rw [← zpow_natCast, Int.toNat_of_nonneg (by omega), zpow_sub₀ (by norm_num),
      zpow_sub₀ (by norm_num)]
    field_simp
  have hlow := two_zpow_le_quotient hm hn e d
  rw [hvalue] at hlow ⊢
  have hexp := (zpow_lt_zpow_iff_right₀ (by norm_num : (1 : ℚ) < 2)).mp
    (hlow.trans_lt (quotient_lt_two_zpow k n t))
  have htarget : t ≤ Format.binary32.targetExponent (totalExponent (k / n) t) := by
    rw [targetExponent_binary32]
    omega
  apply isRounding_roundWithAccuracy _ (by positivity) htarget (lastPlace_quotient hkpos hn htarget)
  apply describes_ofMantissaAndAccuracy_fraction hn (Rat.floor_natCast_div_natCast k n)
  apply Int.fract_div_natCast_eq_div_natCast_mod

/-- The quotient of finite numbers is the rounded quotient of their values, unless the divisor is
zero. -/
theorem roundsTo_div {u v : UnpackedFloat} (hu : IsFinite u) (hv : IsFinite v)
    (hne : exactValue v ≠ 0) :
  RoundsTo (div .binary32 u v) (exactValue u / exactValue v)
  := by
  cases hv with
  | zero t =>
    rw [exactValue_zero] at hne
    contradiction
  | @finite t n d hpos' hc' he' => cases hu with
    | zero s =>
      rw [exactValue_zero, zero_div]
      apply roundsTo_zero
    | @finite s m e hpos hc he =>
      simp only [div, exactValue_finite]
      rw [signed_div]
      use s / t, m * 2 ^ e / (n * 2 ^ d), by positivity, rfl
      apply isRounding_divCore hpos hpos'

end DiagramLayout.Single
