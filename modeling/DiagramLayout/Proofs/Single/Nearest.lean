import Mathlib

/-!
# Rounding rational numbers to single precision

`rounded x` is the number of single precision nearest to `x`, for an exponent without upper bound:
`x` is taken to the nearest multiple of a power of two, the even multiple of two, and that power is
the last place of a number of the size of `x`. Rounding is monotone, keeps the numbers of single
precision, and errs by at most half a unit in the last place.
-/

namespace DiagramLayout.Single

/-! ### Rounding to integers -/

/-- The integer nearest to `x`, and the even one of two. -/
def toEven (x : ℚ) : ℤ :=
  if Int.fract x < 1 / 2 then ⌊x⌋
  else if 1 / 2 < Int.fract x then ⌊x⌋ + 1
  else ⌊x⌋ + ⌊x⌋ % 2

/-- Integers are not changed by rounding to integers. -/
theorem toEven_intCast (k : ℤ) :
  toEven k = k
  := by
  simp [toEven]

/-- Rounding to the nearest integer does not lead below the integer part. -/
theorem floor_le_toEven (x : ℚ) :
  ⌊x⌋ ≤ toEven x
  := by
  unfold toEven
  split_ifs
  · rfl
  · omega
  · omega

/-- Rounding to the nearest integer leads at most one above the integer part. -/
theorem toEven_le_floor_add_one (x : ℚ) :
  toEven x ≤ ⌊x⌋ + 1
  := by
  unfold toEven
  split_ifs
  · omega
  · rfl
  · omega

/-- Rounding to the nearest integer keeps the order. -/
theorem toEven_mono {x y : ℚ} (h : x ≤ y) :
  toEven x ≤ toEven y
  := by
  rcases (Int.floor_mono h).lt_or_eq with hlt | heq
  · have hx := toEven_le_floor_add_one x
    have hy := floor_le_toEven y
    omega
  · have hx := Int.self_sub_floor x
    have hy := Int.self_sub_floor y
    have hfract : Int.fract x ≤ Int.fract y := by
      rw [← hx, ← hy, heq]
      linarith
    unfold toEven
    rw [heq]
    split_ifs
    all_goals first | omega | linarith

/-- Rounding to the nearest integer moves a rational by at most a half. -/
theorem abs_toEven_sub_le (x : ℚ) :
  |toEven x - x| ≤ 1 / 2
  := by
  have hx := Int.floor_add_fract x
  have hlow := Int.fract_nonneg x
  have hhigh := Int.fract_lt_one x
  unfold toEven
  split_ifs with hless hmore
  · rw [abs_le]
    constructor
    all_goals linarith
  · push_cast
    rw [abs_le]
    constructor
    all_goals linarith
  · have hhalf : Int.fract x = 1 / 2 := by linarith
    rcases Int.emod_two_eq_zero_or_one ⌊x⌋ with hmod | hmod
    all_goals
      rw [hmod, abs_le]
      push_cast
      constructor
      all_goals linarith

/-- What lies in the middle of two integers is rounded to the even one. -/
theorem even_toEven_of_abs_sub_eq {x : ℚ} (h : |toEven x - x| = 1 / 2) :
  Even (toEven x)
  := by
  have hx := Int.floor_add_fract x
  have hlow := Int.fract_nonneg x
  have hhigh := Int.fract_lt_one x
  revert h
  unfold toEven
  split_ifs with hless hmore
  · intro h
    rw [abs_sub_comm, abs_of_nonneg (by linarith)] at h
    linarith
  · intro h
    push_cast at h
    rw [abs_of_nonneg (by linarith)] at h
    linarith
  · intro _
    rw [Int.even_iff]
    omega

/-- No integer but `toEven x` is at most a half from `x`, and even when it is a half from `x`. -/
theorem eq_toEven {x : ℚ} {k : ℤ} (hk : |k - x| ≤ 1 / 2) (heven : |k - x| = 1 / 2 → Even k) :
  k = toEven x
  := by
  have hnear := abs_toEven_sub_le x
  have hbetween := abs_sub_le (k : ℚ) x (toEven x)
  rw [abs_sub_comm x] at hbetween
  by_contra hne
  have hone : (1 : ℚ) ≤ |(k : ℚ) - toEven x| := by
    exact_mod_cast Int.one_le_abs (sub_ne_zero.mpr hne)
  have heven' := heven (by linarith)
  have hodd := even_toEven_of_abs_sub_eq (x := x) (by linarith)
  have hle : |k - toEven x| ≤ 1 := by
    have : |(k : ℚ) - toEven x| ≤ 1 := by linarith
    exact_mod_cast this
  rw [Int.even_iff] at heven' hodd
  rw [abs_le] at hle
  omega

/-- Rounding to the nearest integer is the same for opposites. -/
theorem toEven_neg (x : ℚ) :
  toEven (-x) = -toEven x
  := by
  have hsymm : |((-toEven x : ℤ) : ℚ) - -x| = |toEven x - x| := by
    push_cast
    rw [neg_sub_neg, abs_sub_comm]
  symm
  apply eq_toEven
  · rw [hsymm]
    apply abs_toEven_sub_le
  · intro h
    rw [hsymm] at h
    apply (even_toEven_of_abs_sub_eq h).neg

/-! ### Rounding to the last place -/

/-- The exponent of the last place of a number of the size of `x`. -/
def lastPlace (x : ℚ) : ℤ :=
  max (Int.log 2 |x| - 23) (-149)

/-- The number of units in the last place that are nearest to `x`, and the even one of two. -/
def significand (x : ℚ) : ℤ :=
  toEven (x / 2 ^ lastPlace x)

/-- The number of single precision nearest to `x`. -/
def rounded (x : ℚ) : ℚ :=
  significand x * 2 ^ lastPlace x

/-- The numbers of single precision, for an exponent without upper bound. -/
def IsSingle (x : ℚ) : Prop :=
  ∃ m e : ℤ, |m| ≤ 2 ^ 24 ∧ -149 ≤ e ∧ x = m * 2 ^ e

theorem lastPlace_neg (x : ℚ) :
  lastPlace (-x) = lastPlace x
  := by
  simp [lastPlace]

/-- Rounding is the same for opposites. -/
theorem rounded_neg (x : ℚ) :
  rounded (-x) = -rounded x
  := by
  simp only [rounded, significand, lastPlace_neg, neg_div, toEven_neg]
  push_cast
  ring

@[simp]
theorem rounded_zero :
  rounded 0 = 0
  := by
  simp [rounded, significand, toEven]

/-- No last place is below that of the least numbers. -/
theorem neg_le_lastPlace (x : ℚ) :
  -149 ≤ lastPlace x
  := by
  apply le_max_right

/-- The last place is not below that of the 24th digit. -/
theorem log_sub_le_lastPlace (x : ℚ) :
  Int.log 2 |x| - 23 ≤ lastPlace x
  := by
  apply le_max_left

/-- A rational has at most 24 digits down to its last place. -/
theorem abs_lt_two_zpow_lastPlace (x : ℚ) :
  |x| < 2 ^ (lastPlace x + 24)
  := by
  have hlog := Int.lt_zpow_succ_log_self (b := 2) (by norm_num) |x|
  apply hlog.trans_le
  apply zpow_le_zpow_right₀ (by norm_num)
  have hle := log_sub_le_lastPlace x
  omega

/-- A rational has 24 digits down to its last place, unless this is the least one. -/
theorem two_zpow_lastPlace_le {x : ℚ} (hx : x ≠ 0) (h : -149 < lastPlace x) :
  2 ^ (lastPlace x + 23) ≤ |x|
  := by
  have hlog := Int.zpow_log_le_self (b := 2) (by norm_num) (abs_pos.mpr hx)
  have hplace : lastPlace x + 23 = Int.log 2 |x| := by
    unfold lastPlace at h ⊢
    omega
  rw [hplace]
  apply hlog

/-- The last place of a number is the only exponent at least -149 at which its absolute value has 24
digits, or fewer at -149. -/
theorem lastPlace_eq {x : ℚ} {e : ℤ} (he : -149 ≤ e) (hx : x ≠ 0) (hlt : |x| < 2 ^ (e + 24))
    (hle : e = -149 ∨ 2 ^ (e + 23) ≤ |x|) :
  lastPlace x = e
  := by
  have hpos := abs_pos.mpr hx
  have hhigh : Int.log 2 |x| < e + 24 :=
    (Int.lt_zpow_iff_log_lt (by norm_num) hpos).mp (by exact_mod_cast hlt)
  unfold lastPlace
  rcases hle with rfl | hle
  · omega
  · have hlow : e + 23 ≤ Int.log 2 |x| :=
      (Int.zpow_le_iff_le_log (by norm_num) hpos).mp (by exact_mod_cast hle)
    omega

/-- An integer that bounds the number of last places in `x` bounds its significand. -/
theorem significand_le {x : ℚ} {k : ℤ} (h : x ≤ k * 2 ^ lastPlace x) :
  significand x ≤ k
  := by
  rw [← toEven_intCast k]
  apply toEven_mono
  rwa [div_le_iff₀ (by positivity)]

/-- An integer with which the last place does not exceed the rational is not above the
significand. -/
theorem le_significand {x : ℚ} {k : ℤ} (h : k * 2 ^ lastPlace x ≤ x) :
  k ≤ significand x
  := by
  rw [← toEven_intCast k]
  apply toEven_mono
  rwa [le_div_iff₀ (by positivity)]

theorem significand_nonneg {x : ℚ} (h : 0 ≤ x) :
  0 ≤ significand x
  := by
  apply le_significand
  simpa using h

/-- A significand has at most 24 digits, or it is the least number with 25. -/
theorem abs_significand_le (x : ℚ) :
  |significand x| ≤ 2 ^ 24
  := by
  have hlt := abs_lt_two_zpow_lastPlace x
  rw [zpow_add₀ (by norm_num)] at hlt
  rw [abs_lt] at hlt
  rw [abs_le]
  constructor
  · apply le_significand
    push_cast
    norm_num at hlt ⊢
    linarith
  · apply significand_le
    push_cast
    norm_num at hlt ⊢
    linarith

/-- Above the least last place, a significand has at least 24 digits. -/
theorem two_pow_le_significand {x : ℚ} (hx : 0 < x) (h : -149 < lastPlace x) :
  2 ^ 23 ≤ significand x
  := by
  have hle := two_zpow_lastPlace_le hx.ne' h
  rw [abs_of_pos hx, zpow_add₀ (by norm_num)] at hle
  apply le_significand
  push_cast
  norm_num at hle ⊢
  linarith

/-- What is not negative is not rounded to a negative number. -/
theorem rounded_nonneg {x : ℚ} (h : 0 ≤ x) :
  0 ≤ rounded x
  := by
  have hcast : (0 : ℚ) ≤ significand x := by exact_mod_cast significand_nonneg h
  unfold rounded
  positivity

/-- A multiple of the last place of `x` that bounds `x` bounds the rounded number, too. -/
theorem rounded_le_of_le_mul {x : ℚ} {k : ℤ} (h : x ≤ k * 2 ^ lastPlace x) :
  rounded x ≤ k * 2 ^ lastPlace x
  := by
  have hle := significand_le h
  unfold rounded
  gcongr

/-- A multiple of the last place that is not above a rational is not above its rounded value. -/
theorem le_rounded_of_mul_le {x : ℚ} {k : ℤ} (h : k * 2 ^ lastPlace x ≤ x) :
  k * 2 ^ lastPlace x ≤ rounded x
  := by
  have hle := le_significand h
  unfold rounded
  gcongr

/-- A power of two whose exponent is no less than `e` is a multiple of `2 ^ e`. -/
theorem two_zpow_eq_mul {e n : ℤ} (h : e ≤ n) :
  (2 : ℚ) ^ n = ((2 ^ (n - e).toNat : ℤ) : ℚ) * 2 ^ e
  := by
  push_cast
  rw [← zpow_natCast, ← zpow_add₀ (by norm_num)]
  congr 1
  omega

/-- Rounding keeps the order of positive rationals. -/
theorem rounded_mono_of_nonneg {x y : ℚ} (hx : 0 < x) (hxy : x ≤ y) :
  rounded x ≤ rounded y
  := by
  have hy := hx.trans_le hxy
  have hlog : Int.log 2 |x| ≤ Int.log 2 |y| := by
    apply Int.log_mono_right
    · apply abs_pos.mpr hx.ne'
    · rwa [abs_of_pos hx, abs_of_pos hy]
  have hplace : lastPlace x ≤ lastPlace y := by
    unfold lastPlace
    omega
  rcases hplace.lt_or_eq with hlt | heq
  · -- A power of two lies between the numbers and stays between the rounded ones.
    have hlow := (neg_le_lastPlace x).trans_lt hlt
    have hge : (2 : ℚ) ^ (lastPlace y + 23) ≤ y := by
      have h := two_zpow_lastPlace_le hy.ne' hlow
      rwa [abs_of_pos hy] at h
    have hle : x ≤ (2 : ℚ) ^ (lastPlace y + 23) := by
      have h := abs_lt_two_zpow_lastPlace x
      rw [abs_of_pos hx] at h
      apply h.le.trans
      apply zpow_le_zpow_right₀ (by norm_num)
      omega
    calc rounded x ≤ 2 ^ (lastPlace y + 23) := by
          rw [two_zpow_eq_mul (show lastPlace x ≤ lastPlace y + 23 by omega)] at hle ⊢
          apply rounded_le_of_le_mul hle
      _ ≤ rounded y := by
          rw [two_zpow_eq_mul (show lastPlace y ≤ lastPlace y + 23 by omega)] at hge ⊢
          apply le_rounded_of_mul_le hge
  · unfold rounded significand
    rw [heq]
    have hpos : (0 : ℚ) < 2 ^ lastPlace y := by positivity
    have hquot := toEven_mono (div_le_div_of_nonneg_right hxy hpos.le)
    gcongr

/-- Rounding keeps the order. -/
theorem rounded_mono {x y : ℚ} (h : x ≤ y) :
  rounded x ≤ rounded y
  := by
  rcases lt_trichotomy x 0 with hx | rfl | hx
  · rcases lt_or_ge y 0 with hy | hy
    · have hneg := rounded_mono_of_nonneg (neg_pos.mpr hy) (neg_le_neg h)
      rw [rounded_neg, rounded_neg] at hneg
      linarith
    · have hleft := rounded_nonneg (neg_nonneg.mpr hx.le)
      rw [rounded_neg] at hleft
      linarith [rounded_nonneg hy]
  · rw [rounded_zero]
    apply rounded_nonneg h
  · apply rounded_mono_of_nonneg hx h

/-- Rounding moves a rational by at most half a last place. -/
theorem abs_rounded_sub_le (x : ℚ) :
  |rounded x - x| ≤ 2 ^ lastPlace x / 2
  := by
  have hpos : (0 : ℚ) < 2 ^ lastPlace x := by positivity
  have heven := abs_toEven_sub_le (x / 2 ^ lastPlace x)
  have hsplit : rounded x - x
      = (toEven (x / 2 ^ lastPlace x) - x / 2 ^ lastPlace x) * 2 ^ lastPlace x := by
    unfold rounded significand
    field_simp
  rw [hsplit, abs_mul, abs_of_pos hpos]
  linarith [mul_le_mul_of_nonneg_right heven hpos.le]

theorem abs_mul_two_zpow (m e : ℤ) :
  |(m : ℚ) * 2 ^ e| = |m| * 2 ^ e
  := by
  rw [abs_mul, abs_of_pos (by positivity : (0 : ℚ) < 2 ^ e), Int.cast_abs]

/-- With at most 24 digits above an exponent that is allowed, the last place is not above it. -/
theorem lastPlace_mul_two_zpow_le {m e : ℤ} (hne : m ≠ 0) (hm : |m| < 2 ^ 24) (he : -149 ≤ e) :
  lastPlace (m * 2 ^ e) ≤ e
  := by
  have hlt : |(m : ℚ) * 2 ^ e| < ((2 : ℕ) : ℚ) ^ (24 + e) := by
    rw [abs_mul_two_zpow, zpow_add₀ (by norm_num)]
    push_cast
    gcongr
    exact_mod_cast hm
  have hlog := (Int.lt_zpow_iff_log_lt (by norm_num) (abs_pos.mpr (by positivity))).mp hlt
  unfold lastPlace
  omega

/-- A power of two with 25 digits above an exponent has its last place right above it. -/
theorem lastPlace_mul_two_zpow_of_eq {m e : ℤ} (hm : |m| = 2 ^ 24) (he : -149 ≤ e) :
  lastPlace (m * 2 ^ e) = e + 1
  := by
  have hne : m ≠ 0 := by
    rintro rfl
    contradiction
  have hpow : |(m : ℚ) * 2 ^ e| = 2 ^ (e + 24) := by
    rw [abs_mul_two_zpow, hm, zpow_add₀ (by norm_num)]
    norm_num [mul_comm]
  apply lastPlace_eq (by omega) (by positivity)
  · rw [hpow]
    apply zpow_lt_zpow_right₀ (by norm_num)
    omega
  · right
    rw [hpow]
    apply zpow_le_zpow_right₀ (by norm_num)
    omega

/-- A number of single precision is a multiple of its own last place. -/
theorem IsSingle.eq_mul {x : ℚ} (h : IsSingle x) :
  ∃ k : ℤ, x = k * 2 ^ lastPlace x
  := by
  obtain ⟨m, e, hm, he, rfl⟩ := h
  rcases eq_or_ne m 0 with rfl | hne
  · use 0
    simp
  rcases hm.lt_or_eq with hlt | hfull
  · have hle := lastPlace_mul_two_zpow_le hne hlt he
    use m * 2 ^ (e - lastPlace (m * 2 ^ e)).toNat
    rw [Int.cast_mul, mul_assoc, ← two_zpow_eq_mul hle]
  · have heven : m = 2 * (m / 2) := by
      rcases abs_choice m with h | h
      all_goals omega
    use m / 2
    rw [lastPlace_mul_two_zpow_of_eq hfull he, zpow_add₀ (by norm_num)]
    nth_rewrite 1 [heven]
    push_cast
    ring

/-- A number of single precision is not changed by rounding. -/
theorem rounded_of_isSingle {x : ℚ} (h : IsSingle x) :
  rounded x = x
  := by
  obtain ⟨k, hk⟩ := h.eq_mul
  apply le_antisymm
  · apply (rounded_le_of_le_mul hk.le).trans_eq hk.symm
  · apply hk.trans_le (le_rounded_of_mul_le hk.ge)

/-- Integers up to `2 ^ 24` are numbers of single precision. -/
theorem isSingle_intCast {n : ℤ} (h : |n| ≤ 2 ^ 24) :
  IsSingle n
  := by
  use n, 0, h, by norm_num
  simp

/-- Rounding errs by at most the part `2 ^ (-24)` of a number, or by half the least positive
number. -/
theorem abs_rounded_sub_le_max (x : ℚ) :
  |rounded x - x| ≤ max (|x| / 2 ^ 24) (2 ^ (-150 : ℤ))
  := by
  rcases eq_or_ne x 0 with rfl | hx
  · simp
  apply (abs_rounded_sub_le x).trans
  rcases lt_or_ge (-149) (lastPlace x) with hlt | hge
  · apply le_max_of_le_left
    have hle := two_zpow_lastPlace_le hx hlt
    rw [zpow_add₀ (by norm_num)] at hle
    norm_num at hle ⊢
    linarith
  · apply le_max_of_le_right
    rw [le_antisymm hge (neg_le_lastPlace x)]
    norm_num

end DiagramLayout.Single
