import DiagramLayout.Proofs.Single.Nearest

/-!
# Rounding unpacked numbers

The arithmetic of single precision works on unpacked numbers, a sign with a mantissa and an
exponent. `isRounding_roundWithAccuracy` says that it rounds them as `rounded` rounds their value,
and `unpack_pack` that a rounded number survives packing unless its exponent is too large, in which
case it becomes infinite.
-/

namespace DiagramLayout.Single

open Float.Model (Format UnpackedFloat totalExponent)
open Float.Model.UnpackedFloat

/-! ### Mantissas with residual bits -/

/-- The mantissa is the whole part of `x`, and the residual bits tell how its fraction compares with
zero and a half. -/
structure Describes (em : ExtendedMantissa) (x : ℚ) : Prop where
  floor : (em.mantissa : ℤ) = ⌊x⌋
  half : em.roundBit = true ↔ 1 / 2 ≤ Int.fract x
  sticky : em.stickyBit = true ↔ Int.fract (2 * x) ≠ 0

/-- A mantissa that is exact describes itself. -/
theorem describes_ofMantissaAndAccuracy_exact (m : ℕ) :
  Describes (.ofMantissaAndAccuracy m .exact) m
  := by
  constructor
  · simp [ExtendedMantissa.ofMantissaAndAccuracy]
  · norm_num [ExtendedMantissa.ofMantissaAndAccuracy]
  · have h : Int.fract ((2 * m : ℕ) : ℚ) = 0 := Int.fract_natCast _
    push_cast at h
    simp [ExtendedMantissa.ofMantissaAndAccuracy, h]

/-- The fraction of `2 * x` when the fraction of `x` is below a half, and when it is not. -/
theorem fract_two_mul (x : ℚ) :
  Int.fract (2 * x) = if 1 / 2 ≤ Int.fract x then 2 * Int.fract x - 1 else 2 * Int.fract x
  := by
  have hx := Int.floor_add_fract x
  have hlow := Int.fract_nonneg x
  have hhigh := Int.fract_lt_one x
  split_ifs with h
  · rw [Int.fract_eq_iff]
    refine ⟨by linarith, by linarith, 2 * ⌊x⌋ + 1, ?_⟩
    push_cast
    linarith
  · rw [Int.fract_eq_iff]
    refine ⟨by linarith, by linarith, 2 * ⌊x⌋, ?_⟩
    push_cast
    linarith

/-- A mantissa with residual bits is rounded to the integer nearest to what it describes, to the
even one in the middle. -/
theorem Describes.roundedMantissa {em : ExtendedMantissa} {x : ℚ} (h : Describes em x) :
  (em.roundedMantissa : ℤ) = toEven x
  := by
  obtain ⟨hfloor, hhalf, hsticky⟩ := h
  have hlow := Int.fract_nonneg x
  rw [fract_two_mul] at hsticky
  obtain ⟨m, r, s⟩ := em
  simp only [ExtendedMantissa.roundedMantissa] at hfloor hhalf hsticky ⊢
  cases r with
  | false =>
    -- The first residual bit tells the fraction below one half from the rest, the sticky one the middle.
    have hless : Int.fract x < 1 / 2 := by simpa using hhalf
    cases s with
    | false =>
      rw [toEven, if_pos hless]
      apply hfloor
    | true =>
      rw [toEven, if_pos hless]
      apply hfloor
  | true =>
    have hge : 1 / 2 ≤ Int.fract x := by simpa using hhalf
    cases s with
    | false =>
      have heq : Int.fract x = 1 / 2 := by
        simp only [hge, if_true] at hsticky
        simp at hsticky
        linarith
      simp only [ExtendedMantissa.accuracy, Accuracy.roundToNearestEven, toEven, heq]
      norm_num
      omega
    | true =>
      have hmore : 1 / 2 < Int.fract x := by
        simp only [hge, if_true] at hsticky
        apply lt_of_le_of_ne hge
        intro h
        apply hsticky.mp trivial
        linarith
      simp only [ExtendedMantissa.accuracy, Accuracy.roundToNearestEven, toEven, hge.not_gt,
        hmore, if_true, if_false]
      push_cast
      omega

/-- A fraction is zero when it is below a half and so is what is left behind doubling. -/
theorem fract_eq_zero_iff (x : ℚ) :
  Int.fract x = 0 ↔ Int.fract x < 1 / 2 ∧ Int.fract (2 * x) = 0
  := by
  rw [fract_two_mul]
  constructor
  · intro h
    norm_num [h]
  · rintro ⟨hlt, hzero⟩
    rw [if_neg hlt.not_ge] at hzero
    linarith

theorem floor_half (x : ℚ) :
  ⌊x / 2⌋ = ⌊x⌋ / 2
  := by
  exact_mod_cast Int.floor_div_natCast x 2

/-- The fraction of `x / 2` is at least a half when the whole part of `x` is odd. -/
theorem half_le_fract_half (x : ℚ) :
  1 / 2 ≤ Int.fract (x / 2) ↔ ⌊x⌋ % 2 = 1
  := by
  have hlow := Int.fract_nonneg x
  have hhigh := Int.fract_lt_one x
  have hsplit : ((⌊x⌋ % 2 : ℤ) : ℚ) + 2 * ((⌊x⌋ / 2 : ℤ) : ℚ) = ⌊x⌋ := by
    exact_mod_cast Int.emod_add_mul_ediv ⌊x⌋ 2
  have hfract : Int.fract (x / 2) = ((⌊x⌋ % 2 : ℤ) + Int.fract x) / 2 := by
    rw [Int.fract, Int.fract, floor_half]
    linarith
  rw [hfract]
  rcases Int.emod_two_eq_zero_or_one ⌊x⌋ with hmod | hmod
  · rw [hmod]
    apply iff_of_false
    · push_cast
      linarith
    · decide
  · rw [hmod]
    apply iff_of_true
    · push_cast
      linarith
    · rfl

/-- Shifting a mantissa to the right by one digit describes the half. -/
theorem Describes.shiftRightOne {em : ExtendedMantissa} {x : ℚ} (h : Describes em x) :
  Describes em.shiftRightOne (x / 2)
  := by
  have hfloor := h.floor
  constructor
  case floor =>
    rw [floor_half]
    simp only [ExtendedMantissa.shiftRightOne]
    omega
  case half =>
    rw [half_le_fract_half]
    simp only [ExtendedMantissa.shiftRightOne, bne_iff_ne]
    omega
  case sticky =>
    rw [mul_div_cancel₀ x two_ne_zero, Ne, fract_eq_zero_iff, not_and_or, not_lt, ← h.half, ← Ne,
      ← h.sticky]
    simp only [ExtendedMantissa.shiftRightOne, Bool.or_eq_true]

/-- Shifting a mantissa to the right describes division by a power of two. -/
theorem Describes.shiftRight {em : ExtendedMantissa} {x : ℚ} (h : Describes em x) (n : ℕ) :
  Describes (em >>> n) (x / 2 ^ n)
  := by
  change Describes (n.repeat ExtendedMantissa.shiftRightOne em) _
  induction n with
  | zero => simpa [Nat.repeat] using h
  | succ n ih =>
    rw [pow_succ, ← div_div]
    apply ih.shiftRightOne

/-! ### Rounding -/

/-- The form in which a mantissa and an exponent are packed. -/
structure IsCanonical (m : ℕ) (e : ℤ) : Prop where
  lt : m < 2 ^ 24
  low : -149 ≤ e
  normal : e = -149 ∨ 2 ^ 23 ≤ m

/-- An unpacked number in the form in which it is packed, with the sign `s` and the absolute value
`rounded x`. -/
inductive IsRounding : UnpackedFloat → Sign → ℚ → Prop
  | zero {s : Sign} {x : ℚ} : rounded x = 0 → IsRounding (.zero s) s x
  | finite {s : Sign} {m : ℕ} {e : ℤ} {x : ℚ} (hpos : 0 < m) : IsCanonical m e →
      (m : ℚ) * 2 ^ e = rounded x → IsRounding (.finite s m e hpos) s x

/-- The target exponent leaves 24 digits, and it is not below that of the least numbers. -/
theorem targetExponent_binary32 (n : ℤ) :
  Format.binary32.targetExponent n = max (n - 24) (-149)
  := rfl

theorem log2_lt_of_lt {m k : ℕ} (hk : 0 < k) (h : m < 2 ^ k) :
  m.log2 < k
  := by
  rcases eq_or_ne m 0 with rfl | hm
  · simpa using hk
  · apply (Nat.log2_lt hm).mpr h

/-- A mantissa of at most 24 digits with an exponent that is allowed is not shifted. -/
theorem shiftToTargetExponent_of_lt {m : ℕ} {e : ℤ} (hm : m < 2 ^ 24) (he : -149 ≤ e) :
  shiftToTargetExponent .binary32 m e .exact = (.ofMantissaAndAccuracy m .exact, e)
  := by
  have hlog := log2_lt_of_lt (by norm_num) hm
  have hshift : (Format.binary32.targetExponent (totalExponent m e) - e).toNat = 0 := by
    rw [targetExponent_binary32, totalExponent]
    omega
  simp only [shiftToTargetExponent, shiftToExponent, hshift]
  simp only [HShiftRight.hShiftRight, Nat.repeat, Nat.cast_zero, add_zero]

/-- A mantissa that was rounded up to 25 digits is shifted by one. -/
theorem shiftToTargetExponent_carry {e : ℤ} (he : -149 ≤ e) :
  shiftToTargetExponent .binary32 (2 ^ 24) e .exact
    = (.ofMantissaAndAccuracy (2 ^ 23) .exact, e + 1)
  := by
  have hshift : (Format.binary32.targetExponent (totalExponent (2 ^ 24) e) - e).toNat = 1 := by
    rw [targetExponent_binary32, totalExponent, Nat.log2_two_pow]
    omega
  simp only [shiftToTargetExponent, shiftToExponent, hshift]
  rfl

/-- The last place of a number whose whole part is not zero, after it is multiplied by a power of
two. -/
theorem lastPlace_mul_two_zpow {m : ℕ} {x : ℚ} (hm : 0 < m) (hx : ⌊x⌋ = m) (e : ℤ) :
  lastPlace (x * 2 ^ e) = Format.binary32.targetExponent (totalExponent m e)
  := by
  obtain ⟨hlow, hhigh⟩ := Int.floor_eq_iff.mp hx
  push_cast at hlow hhigh
  have hone : (1 : ℚ) ≤ m := by exact_mod_cast hm
  have hxpos : 0 < x := by linarith
  have hpos : 0 < |x * 2 ^ e| := abs_pos.mpr (by positivity)
  have habs : |x * 2 ^ e| = x * 2 ^ e := abs_of_pos (by positivity)
  have hself : ((2 : ℕ) : ℚ) ^ ((m.log2 : ℤ) + e) ≤ |x * 2 ^ e| := by
    rw [habs, zpow_add₀ (by norm_num), zpow_natCast]
    push_cast
    gcongr
    apply le_trans _ hlow
    exact_mod_cast Nat.log2_self_le hm.ne'
  have hnext : |x * 2 ^ e| < ((2 : ℕ) : ℚ) ^ ((m.log2 : ℤ) + 1 + e) := by
    rw [habs, zpow_add₀ (by norm_num)]
    push_cast
    gcongr
    apply hhigh.trans_le
    exact_mod_cast Nat.lt_log2_self
  have hle := (Int.zpow_le_iff_le_log (by norm_num) hpos).mp hself
  have hlt := (Int.lt_zpow_iff_log_lt (by norm_num) hpos).mp hnext
  rw [lastPlace, targetExponent_binary32, totalExponent]
  omega

/-- The unpacked number of a mantissa and an exponent, zero for a zero mantissa. -/
def ofMantissa (s : Sign) (p : ExtendedMantissa × ℤ) : UnpackedFloat :=
  if h : p.1.mantissa = 0 then .zero s else .finite s p.1.mantissa p.2 (Nat.pos_of_ne_zero h)

/-- A canonical mantissa whose value is the rounded rational is the rounding of it. -/
theorem isRounding_ofMantissa {s : Sign} {m : ℕ} {e : ℤ} {x : ℚ} (hm : m = 0 ∨ IsCanonical m e)
    (hvalue : (m : ℚ) * 2 ^ e = rounded x) :
  IsRounding (ofMantissa s (.ofMantissaAndAccuracy m .exact, e)) s x
  := by
  by_cases hzero : m = 0
  · have h : ofMantissa s (.ofMantissaAndAccuracy m .exact, e) = .zero s := dif_pos hzero
    rw [h]
    apply IsRounding.zero
    rw [← hvalue, hzero]
    simp
  · have h : ofMantissa s (.ofMantissaAndAccuracy m .exact, e)
        = .finite s m e (Nat.pos_of_ne_zero hzero) := dif_neg hzero
    rw [h]
    apply IsRounding.finite _ (hm.resolve_left hzero) hvalue

/-- A significand of at most 24 binary digits, or the next power of two, is brought to the form in
which it is packed. -/
theorem isRounding_shiftToTargetExponent {s : Sign} {m : ℕ} {e : ℤ} {x : ℚ} (hm : m ≤ 2 ^ 24)
    (he : -149 ≤ e) (hnormal : m = 0 ∨ e = -149 ∨ 2 ^ 23 ≤ m)
    (hvalue : (m : ℚ) * 2 ^ e = rounded x) :
  IsRounding (ofMantissa s (shiftToTargetExponent .binary32 m e .exact)) s x
  := by
  rcases hm.lt_or_eq with hlt | rfl
  · rw [shiftToTargetExponent_of_lt hlt he]
    apply isRounding_ofMantissa _ hvalue
    rcases hnormal with hzero | hnormal
    · left
      apply hzero
    · right
      exact ⟨hlt, he, hnormal⟩
  · rw [shiftToTargetExponent_carry he]
    apply isRounding_ofMantissa
    · right
      exact ⟨by norm_num, by omega, Or.inr le_rfl⟩
    · rw [← hvalue, zpow_add₀ (by norm_num)]
      push_cast
      ring

/-- Arithmetic rounds a mantissa and an exponent with the residual bits of `x` as `rounded` rounds
their value. -/
theorem isRounding_roundWithAccuracy {s : Sign} {m : ℕ} {e : ℤ} {a : Accuracy} {x : ℚ}
    (hx : Describes (.ofMantissaAndAccuracy m a) x) (hpos : 0 < x)
    (he : e ≤ Format.binary32.targetExponent (totalExponent m e))
    (hplace : lastPlace (x * 2 ^ e) = Format.binary32.targetExponent (totalExponent m e)) :
  IsRounding (roundWithAccuracy .binary32 s m e a) s (x * 2 ^ e)
  := by
  have hxe : 0 < x * 2 ^ e := by positivity
  rw [← hplace] at he
  have hshift : shiftToTargetExponent .binary32 m e a
      = (ExtendedMantissa.ofMantissaAndAccuracy m a >>> (lastPlace (x * 2 ^ e) - e).toNat,
        lastPlace (x * 2 ^ e)) := by
    simp only [shiftToTargetExponent, shiftToExponent, ← hplace, Prod.mk.injEq, true_and]
    omega
  have hquot : x / 2 ^ (lastPlace (x * 2 ^ e) - e).toNat = x * 2 ^ e / 2 ^ lastPlace (x * 2 ^ e) := by
    rw [← zpow_natCast, Int.toNat_of_nonneg (by omega), zpow_sub₀ (by norm_num)]
    field_simp
  have hround := (hx.shiftRight (lastPlace (x * 2 ^ e) - e).toNat).roundedMantissa
  rw [hquot] at hround
  change IsRounding (ofMantissa s (shiftToTargetExponent .binary32
    (shiftToTargetExponent .binary32 m e a).1.roundedMantissa
    (shiftToTargetExponent .binary32 m e a).2 .exact)) s (x * 2 ^ e)
  rw [hshift]
  apply isRounding_shiftToTargetExponent
  · have hle := (abs_le.mp (abs_significand_le (x * 2 ^ e))).2
    rw [significand, ← hround] at hle
    exact_mod_cast hle
  · apply neg_le_lastPlace
  · right
    rcases (neg_le_lastPlace (x * 2 ^ e)).eq_or_lt with heq | hlt
    · left
      apply heq.symm
    · right
      have hle := two_pow_le_significand hxe hlt
      rw [significand, ← hround] at hle
      exact_mod_cast hle
  · rw [rounded, significand, ← hround, Int.cast_natCast]

/-! ### Packing -/

theorem unpack_packedInfinity (s : Sign) :
  unpack .binary32 (packedInfinity .binary32 s) = .infinity s
  := by
  simp [unpack, packedInfinity]

/-- The implicit leading digit in front of the other digits of a normal mantissa. -/
theorem toNat_one_append (v : BitVec 23) :
  (1#1 ++ v).toNat = 2 ^ 23 + v.toNat
  := by
  rw [BitVec.toNat_append, ← Nat.shiftLeft_add_eq_or_of_lt v.isLt, Nat.shiftLeft_eq]
  rfl

/-- A mantissa with 24 digits is packed without its first digit. -/
theorem pack_of_normal {s : Sign} {m : ℕ} {e : ℤ} (hpos : 0 < m) (hc : IsCanonical m e)
    (hnormal : 2 ^ 23 ≤ m) (he : e ≤ 104) :
  pack .binary32 (.finite s m e hpos)
    = packComponents .binary32 s (BitVec.ofNat 8 (e + 150).toNat) (BitVec.ofNat 23 m)
  := by
  have hlow := hc.low
  have hlog : m.log2 = 23 := (Nat.log2_eq_iff hpos.ne').mpr ⟨hnormal, hc.lt⟩
  have hexp : e + 127 + 23 = e + 150 := by omega
  have hsmall : ¬2 ^ 8 ≤ (e + 127 + 23).toNat + 1 := by omega
  change (if 2 ^ 8 ≤ (e + 127 + 23).toNat + 1 then _ else if m.log2 + 1 = 24 then _ else _) = _
  rw [if_neg hsmall, if_pos (by omega), ← hexp]
  rfl

/-- A mantissa with fewer digits is packed with the least exponent. -/
theorem pack_of_subnormal {s : Sign} {m : ℕ} (hpos : 0 < m) (hlt : m < 2 ^ 23) :
  pack .binary32 (.finite s m (-149) hpos) = packComponents .binary32 s 0#8 (BitVec.ofNat 23 m)
  := by
  have hlog := log2_lt_of_lt (by norm_num) hlt
  simp only [pack]
  rw [if_neg (by decide), if_neg (by simp only [Format.mantissaBits]; omega)]

/-- A number with 24 digits is unpacked as it was packed. -/
theorem unpack_pack_of_normal {s : Sign} {m : ℕ} {e : ℤ} (hpos : 0 < m) (hc : IsCanonical m e)
    (hnormal : 2 ^ 23 ≤ m) (he : e ≤ 104) :
  unpack .binary32 (pack .binary32 (.finite s m e hpos)) = .finite s m e hpos
  := by
  have hlow := hc.low
  have hbiased : (BitVec.ofNat 8 (e + 150).toNat).toNat = (e + 150).toNat := by
    rw [BitVec.toNat_ofNat, Nat.mod_eq_of_lt (by omega)]
  have hones : BitVec.ofNat 8 (e + 150).toNat ≠ -1#8 := by
    intro h
    rw [← BitVec.toNat_inj, hbiased] at h
    norm_num at h
    omega
  have hzero : BitVec.ofNat 8 (e + 150).toNat ≠ 0#8 := by
    intro h
    rw [← BitVec.toNat_inj, hbiased] at h
    norm_num at h
    omega
  rw [pack_of_normal hpos hc hnormal he]
  simp only [unpack, unpackMantissa_packComponents, unpackExponent_packComponents,
    unpackSign_packComponents, Sign.ofBitVec_toBitVec]
  rw [if_neg hones, if_neg hzero]
  have hmantissa : (1#1 ++ BitVec.ofNat 23 m).toNat = m := by
    have hlt := hc.lt
    rw [toNat_one_append, BitVec.toNat_ofNat]
    omega
  simp only [hmantissa, hbiased]
  congr 1
  change ((e + 150).toNat : ℤ) - (127 + 23) = e
  omega

/-- A number with fewer digits is unpacked as it was packed. -/
theorem unpack_pack_of_subnormal {s : Sign} {m : ℕ} (hpos : 0 < m) (hlt : m < 2 ^ 23) :
  unpack .binary32 (pack .binary32 (.finite s m (-149) hpos)) = .finite s m (-149) hpos
  := by
  have hmantissa : (BitVec.ofNat 23 m).toNat = m := by
    rw [BitVec.toNat_ofNat, Nat.mod_eq_of_lt hlt]
  have hne : BitVec.ofNat 23 m ≠ 0#23 := by
    intro h
    rw [← BitVec.toNat_inj, hmantissa] at h
    norm_num at h
    omega
  rw [pack_of_subnormal hpos hlt]
  simp only [unpack, unpackMantissa_packComponents, unpackExponent_packComponents,
    unpackSign_packComponents, Sign.ofBitVec_toBitVec]
  rw [if_neg (by decide), if_pos trivial, dif_neg hne]
  simp only [hmantissa]
  rfl

/-- Packing loses nothing of a number in canonical form whose exponent is not too large. -/
theorem unpack_pack {s : Sign} {m : ℕ} {e : ℤ} (hpos : 0 < m) (hc : IsCanonical m e)
    (he : e ≤ 104) :
  unpack .binary32 (pack .binary32 (.finite s m e hpos)) = .finite s m e hpos
  := by
  rcases lt_or_ge m (2 ^ 23) with hlt | hge
  · obtain rfl := hc.normal.resolve_right hlt.not_ge
    apply unpack_pack_of_subnormal hpos hlt
  · apply unpack_pack_of_normal hpos hc hge he

/-- A number with too large an exponent is packed as an infinite one. -/
theorem unpack_pack_of_large {s : Sign} {m : ℕ} {e : ℤ} (hpos : 0 < m) (he : 105 ≤ e) :
  unpack .binary32 (pack .binary32 (.finite s m e hpos)) = .infinity s
  := by
  have hlarge : 2 ^ 8 ≤ (e + 127 + 23).toNat + 1 := by omega
  have hpack : pack .binary32 (.finite s m e hpos) = packedInfinity .binary32 s := by
    simp only [pack]
    apply if_pos hlarge
  rw [hpack, unpack_packedInfinity]

/-- Unpacking gives the canonical form. -/
theorem isCanonical_of_unpack {b : BitVec 32} {s : Sign} {m : ℕ} {e : ℤ} {hpos : 0 < m}
    (h : unpack .binary32 b = .finite s m e hpos) :
  IsCanonical m e ∧ e ≤ 104
  := by
  revert h
  fun_cases unpack .binary32 b with
  | case1 => simp
  | case2 => simp
  | case3 => simp
  | case4 mantissa exponent e' sign s' hones hzero hmantissa =>
    intro h
    obtain ⟨-, rfl, rfl⟩ := UnpackedFloat.finite.inj h
    have hlt : mantissa.toNat < 2 ^ 23 := mantissa.isLt
    have he : e' + 1 = -149 := by
      change (exponent.toNat : ℤ) - (127 + 23) + 1 = -149
      rw [hzero]
      rfl
    rw [he]
    exact ⟨⟨by omega, le_rfl, Or.inl rfl⟩, by norm_num⟩
  | case5 mantissa exponent e' sign s' hones hzero =>
    intro h
    obtain ⟨-, rfl, rfl⟩ := UnpackedFloat.finite.inj h
    have hlt : mantissa.toNat < 2 ^ 23 := mantissa.isLt
    have hexp : exponent.toNat < 2 ^ 8 := exponent.isLt
    have he : e' = (exponent.toNat : ℤ) - 150 := rfl
    have hfirst : exponent.toNat ≠ 0 := by
      intro h0
      apply hzero
      apply BitVec.eq_of_toNat_eq
      simpa using h0
    have hlast : exponent.toNat ≠ 255 := by
      intro h255
      apply hones
      apply BitVec.eq_of_toNat_eq
      rw [h255]
      rfl
    have hm : (1#1 ++ mantissa).toNat = 2 ^ 23 + mantissa.toNat := toNat_one_append mantissa
    rw [hm]
    exact ⟨⟨by omega, by omega, Or.inr (by omega)⟩, by omega⟩

end DiagramLayout.Single
