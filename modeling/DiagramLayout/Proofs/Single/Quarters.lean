import DiagramLayout.Proofs.Single.Operations

/-!
# Quarters in single precision

Multiples of a quarter are numbers of single precision as long as they have at most 24 binary digits.
So sums of quarters are exact, in whatever order they are added.
-/

namespace DiagramLayout.Single

/-- The number `x` is `n` quarters. -/
structure IsQuarters (x : Float32) (n : ℕ) : Prop where
  isRational : IsRational x
  value_eq : value x = n / 4

instance (x : Float32) (n : ℕ) : Decidable (IsQuarters x n) :=
  decidable_of_iff (x.isFinite = true ∧ value x = n / 4)
    ⟨fun ⟨hfinite, hvalue⟩ => ⟨isRational_iff.mpr hfinite, hvalue⟩,
      fun h => ⟨isRational_iff.mp h.isRational, h.value_eq⟩⟩

/-- A count of quarters up to `2 ^ 24` is represented, so rounding leaves it alone. -/
theorem IsNearest.isQuarters {x : Float32} {n : ℕ} (hx : IsNearest x (n / 4)) (hn : n ≤ 2 ^ 24) :
  IsQuarters x n
  := by
  have hsingle : IsSingle (n / 4) := by
    refine ⟨n, -2, ?_, by norm_num, by push_cast; ring⟩
    rw [Nat.abs_cast]
    exact_mod_cast hn
  have hround : rounded (n / 4) = n / 4 := rounded_of_isSingle hsingle
  have hbound : |rounded ((n : ℚ) / 4)| < 2 ^ 128 := by
    have hn' : (n : ℚ) ≤ 2 ^ 24 := by exact_mod_cast hn
    rw [hround, abs_of_nonneg (by positivity)]
    calc (n : ℚ) / 4 ≤ 2 ^ 24 / 4 := div_le_div_of_nonneg_right hn' (by norm_num)
      _ < 2 ^ 128 := by norm_num
  obtain ⟨hrational, hvalue⟩ := hx.value_of_abs_lt hbound
  exact ⟨hrational, hvalue.trans hround⟩

/-- A natural number is four times as many quarters. -/
theorem isQuarters_ofNat {n : ℕ} (h : n ≤ 2 ^ 24) :
  IsQuarters (Float32.ofNat n) (4 * n)
  := by
  obtain ⟨hrational, hvalue⟩ := value_ofNat h
  refine ⟨hrational, ?_⟩
  rw [hvalue]
  push_cast
  ring

theorem isQuarters_zero :
  IsQuarters 0.0 0
  := isQuarters_ofNat (n := 0) (by norm_num)

theorem isQuarters_one :
  IsQuarters 1.0 4
  := isQuarters_ofNat (n := 1) (by norm_num)

namespace IsQuarters

variable {x y : Float32} {m n k : ℕ}

theorem nonneg (h : IsQuarters x n) :
  0.0 ≤ x
  := by
  apply zero_le_iff.mpr
  refine ⟨h.isRational.isNumber, ?_⟩
  rw [h.value_eq]
  positivity

/-- Sums of quarters are exact up to `2 ^ 24` of them. -/
theorem add (hx : IsQuarters x m) (hy : IsQuarters y n) (h : m + n ≤ 2 ^ 24) :
  IsQuarters (x + y) (m + n)
  := by
  have hsum := isNearest_add hx.isRational hy.isRational
  rw [hx.value_eq, hy.value_eq, ← add_div, ← Nat.cast_add] at hsum
  exact hsum.isQuarters h

/-- A natural number of times a number of quarters. -/
theorem mul_ofNat (hx : IsQuarters x n) (hk : k ≤ 2 ^ 24) (h : k * n ≤ 2 ^ 24) :
  IsQuarters (Float32.ofNat k * x) (k * n)
  := by
  obtain ⟨hrational, hvalue⟩ := value_ofNat hk
  have hproduct := isNearest_mul hrational hx.isRational
  rw [hvalue, hx.value_eq, ← mul_div_assoc, ← Nat.cast_mul] at hproduct
  exact hproduct.isQuarters h

/-- A surcharge of some quarters where something holds. -/
theorem surcharge (P : Prop) [Decidable P] (hx : IsQuarters x m) (hy : IsQuarters y n)
    (h : m + n ≤ 2 ^ 24) :
  ∃ k ≤ n, IsQuarters (if P then x + y else x) (m + k)
    ∧ (if P then value y else 0) = (k : ℚ) / 4
  := by
  split_ifs
  · exact ⟨n, le_rfl, hx.add hy h, hy.value_eq⟩
  · exact ⟨0, Nat.zero_le n, hx, by simp⟩

/-- Counts of quarters are compared as natural numbers. -/
theorem le_iff (hx : IsQuarters x m) (hy : IsQuarters y n) :
  x ≤ y ↔ m ≤ n
  := by
  rw [Single.le_iff, hx.value_eq, hy.value_eq, div_le_div_iff_of_pos_right (by norm_num),
    Nat.cast_le]
  exact ⟨fun h => h.2.2, fun h => ⟨hx.isRational.isNumber, hy.isRational.isNumber, h⟩⟩

end IsQuarters

end DiagramLayout.Single
