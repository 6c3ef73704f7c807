import DiagramLayout.Proofs.Single.Whole

/-!
# Magnitudes in single precision

A power of two is a number of single precision, so that rounding does not lead beyond it. Sums,
products and quotients of finite numbers are finite as long as the powers of two above them stay in
the range of single precision.
-/

namespace DiagramLayout.Single

open Float.Model (UnpackedFloat)

/-- The number is finite and of magnitude at most `2 ^ k`. -/
structure IsWithin (x : Float32) (k : ℕ) : Prop where
  isRational : IsRational x
  bounded : |value x| ≤ 2 ^ k

/-- Rounding does not leave a bound that is a power of two. -/
theorem IsNearest.isWithin {f : Float32} {x : ℚ} {k : ℕ} (hf : IsNearest f x) (hx : |x| ≤ 2 ^ k)
    (hk : k < 128) :
  IsWithin f k
  := by
  have hround := abs_rounded_le hx
  have hlt : (2 : ℚ) ^ k < 2 ^ 128 := pow_lt_pow_right₀ (by norm_num) hk
  obtain ⟨hrational, hvalue⟩ := hf.value_of_abs_lt (hround.trans_lt hlt)
  rw [← hvalue] at hround
  exact ⟨hrational, hround⟩

/-- A whole value is within a power of two when its integer is. -/
theorem IsWhole.isWithin {x : Float32} {n : ℤ} {k : ℕ} (hx : IsWhole x n) (hn : |n| ≤ 2 ^ k) :
  IsWithin x k
  := by
  use hx.isRational
  rw [hx.value_eq]
  exact_mod_cast hn

theorem isWithin_ofNat {n k : ℕ} (hn : n ≤ 2 ^ k) (hk : k < 128) :
  IsWithin (Float32.ofNat n) k
  := by
  apply (isNearest_ofNat n).isWithin _ hk
  rw [Nat.abs_cast]
  exact_mod_cast hn

/-- A value that is not negative needs only the bound from above. -/
theorem isWithin_of_nonneg {x : Float32} {k : ℕ} (hx : 0.0 ≤ x) (hle : value x ≤ 2 ^ k)
    (hk : k < 128) :
  IsWithin x k
  := by
  obtain ⟨hnumber, hnonneg⟩ := zero_le_iff.mp hx
  have hbounded : |value x| ≤ 2 ^ k := by rwa [abs_of_nonneg hnonneg]
  have hlt : (2 : ℚ) ^ k < 2 ^ 128 := pow_lt_pow_right₀ (by norm_num) hk
  exact ⟨hnumber.isRational (hbounded.trans_lt hlt), hbounded⟩

namespace IsWithin

variable {x y : Float32} {j k : ℕ}

theorem mono (h : IsWithin x j) (hjk : j ≤ k) :
  IsWithin x k
  := by
  use h.isRational
  apply h.bounded.trans
  apply pow_le_pow_right₀ (by norm_num) hjk

/-- A sum is within twice the common bound of its terms. -/
theorem add (hx : IsWithin x k) (hy : IsWithin y k) (hk : k + 1 < 128) :
  IsWithin (x + y) (k + 1)
  := by
  apply (isNearest_add hx.isRational hy.isRational).isWithin _ hk
  calc |value x + value y| ≤ |value x| + |value y| := abs_add_le _ _
    _ ≤ 2 ^ k + 2 ^ k := add_le_add hx.bounded hy.bounded
    _ = 2 ^ (k + 1) := by ring

/-- A difference is within twice the common bound of its terms. -/
theorem sub (hx : IsWithin x k) (hy : IsWithin y k) (hk : k + 1 < 128) :
  IsWithin (x - y) (k + 1)
  := by
  apply (isNearest_sub hx.isRational hy.isRational).isWithin _ hk
  calc |value x - value y| ≤ |value x| + |value y| := abs_sub _ _
    _ ≤ 2 ^ k + 2 ^ k := add_le_add hx.bounded hy.bounded
    _ = 2 ^ (k + 1) := by ring

/-- A product is within the product of the two bounds. -/
theorem mul (hx : IsWithin x j) (hy : IsWithin y k) (hk : j + k < 128) :
  IsWithin (x * y) (j + k)
  := by
  apply (isNearest_mul hx.isRational hy.isRational).isWithin _ hk
  rw [abs_mul, pow_add]
  apply mul_le_mul hx.bounded hy.bounded (abs_nonneg _) (by positivity)

/-- A quotient by a number of at least one is not greater than its numerator. -/
theorem div (hx : IsWithin x k) (hy : IsRational y) (hy' : 1 ≤ value y) (hk : k < 128) :
  IsWithin (x / y) k
  := by
  have hpos : 0 < value y := by linarith
  apply (isNearest_div hx.isRational hy hpos.ne').isWithin _ hk
  rw [abs_div, abs_of_pos hpos]
  apply (div_le_self (abs_nonneg _) hy').trans hx.bounded

/-- A ceiling is within twice the bound, as long as the whole numbers there are exact. -/
theorem ceil (hx : IsWithin x 23) :
  IsWithin (ceil x) 24
  := by
  obtain ⟨hwhole, hbound⟩ := isWhole_ceil hx.isRational hx.bounded
  apply hwhole.isWithin hbound

/-- The lesser of two numbers is finite when one of them is and the other one is not less than all
numbers of its magnitude. -/
theorem lesser (hx : IsNumber x) (hx' : -2 ^ k ≤ value x) (hy : IsWithin y k) (hk : k < 128) :
  IsWithin (lesser x y) k
  := by
  have hnumber : x.isNaN = false := hx
  have hrange := abs_le.mp hy.bounded
  simp only [Single.lesser, hnumber, Bool.false_eq_true, if_false]
  split_ifs with hlt
  · apply hy
  · have hle := (le_iff.mp (le_of_not_lt hy.isRational.isNumber hx hlt)).2.2
    have hbound : |value x| ≤ 2 ^ k := abs_le.mpr ⟨hx', hle.trans hrange.2⟩
    have hpow : (2 : ℚ) ^ k < 2 ^ 128 := pow_lt_pow_right₀ (by norm_num) hk
    exact ⟨hx.isRational (hbound.trans_lt hpow), hbound⟩

theorem greater (hx : IsWithin x k) (hy : IsWithin y k) :
  IsWithin (greater x y) k
  := by
  rw [Single.greater]
  split_ifs
  · apply hy
  · apply hy
  · apply hx

end IsWithin

/-- The greater of two values is no less than the second, when that one is a number. -/
theorem le_greater (x : Float32) {y : Float32} (hy : IsNumber y) :
  y ≤ greater x y
  := by
  rw [greater]
  split_ifs with hx hlt
  · apply Single.le_refl hy
  · apply Single.le_refl hy
  · apply le_of_not_lt _ hy hlt
    exact Bool.eq_false_iff.mpr hx

end DiagramLayout.Single
