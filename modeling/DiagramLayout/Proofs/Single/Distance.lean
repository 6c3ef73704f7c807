import DiagramLayout.Proofs.Single.Products

/-!
# Distances and costs

The distance of a number from a finite one is a number that is not negative, even where the number is
infinite, and so is a positive multiple of it. A cost is no less than any of its parts.
-/

namespace DiagramLayout.Single

open Float.Model (UnpackedFloat)
open Float.Model.UnpackedFloat

variable {x y : Float32}

/-! ### Infinite numbers -/

/-- A number is finite or one of the two infinities. -/
theorem IsNumber.isRational_or (h : IsNumber x) :
  IsRational x ∨ ∃ s, x.toModel.unpack = .infinity s
  := by
  have ho := h.isOrdered
  unfold IsRational
  generalize x.toModel.unpack = u at ho
  cases ho with
  | infinity s => exact .inr ⟨s, rfl⟩
  | finite hu => exact .inl hu

theorem isNumber_of_infinity {s : Sign} (h : x.toModel.unpack = .infinity s) :
  IsNumber x
  := by
  apply isNumber_of_unpack
  rw [h]
  exact .infinity s

theorem nonneg_of_infinity (h : x.toModel.unpack = .infinity .positive) :
  0.0 ≤ x
  := by
  rw [zero_le_iff, value, h, exactValue_infinity]
  exact ⟨isNumber_of_infinity h, by norm_num [signed]⟩

/-! ### Distances -/

/-- A number less a finite value is a number: no two infinities meet. -/
theorem isNumber_sub (hx : IsNumber x) (hy : IsRational y) :
  IsNumber (x - y)
  := by
  rcases hx.isRational_or with hx | ⟨s, hx⟩
  · exact (isNearest_sub hx hy).isNumber
  · have hsub : ∀ v, IsFinite v → sub .binary32 (.infinity s) v = .infinity s := by
      intro v hv
      cases hv <;> rfl
    have hunpack : (x - y).toModel.unpack
        = unpack .binary32 (pack .binary32 (sub .binary32 x.toModel.unpack y.toModel.unpack)) := rfl
    rw [hx, hsub _ hy] at hunpack
    exact isNumber_of_infinity (hunpack.trans (unpack_packedInfinity s))

/-- A number divided by a positive finite value is a number. -/
theorem isNumber_div (hx : IsNumber x) (hy : IsRational y) (h : 0 < value y) :
  IsNumber (x / y)
  := by
  rcases hx.isRational_or with hx | ⟨s, hx⟩
  · exact (isNearest_div hx hy h.ne').isNumber
  · obtain ⟨m, e, hpos, hy⟩ := exists_unpack_of_pos hy h
    have hunpack : (x / y).toModel.unpack
        = unpack .binary32 (pack .binary32 (div .binary32 x.toModel.unpack y.toModel.unpack)) := rfl
    rw [hx, hy] at hunpack
    exact isNumber_of_infinity (hunpack.trans (unpack_packedInfinity _))

theorem nonneg_abs (hx : IsNumber x) :
  0.0 ≤ x.abs
  := by
  rcases hx.isRational_or with hx | ⟨s, hx⟩
  · obtain ⟨hrational, hvalue⟩ := isRational_abs hx
    rw [zero_le_iff, hvalue]
    exact ⟨hrational.isNumber, abs_nonneg _⟩
  · have hunpack : x.abs.toModel.unpack = unpack .binary32 (pack .binary32 x.toModel.unpack.abs) := rfl
    rw [hx] at hunpack
    exact nonneg_of_infinity (hunpack.trans (unpack_packedInfinity .positive))

/-! ### Costs -/

/-- A positive multiple of a number that is not negative, maybe an infinite one, is not negative. -/
theorem nonneg_mul_of_pos (hx : 0.0 ≤ x) (hy : IsRational y) (h : 0 < value y) :
  0.0 ≤ x * y
  := by
  obtain ⟨hnumber, hnonneg⟩ := zero_le_iff.mp hx
  by_cases hrational : IsRational x
  · exact nonneg_mul hrational hx hy (zero_le_iff.mpr ⟨hy.isNumber, h.le⟩)
  · have hpos : 0 < value x := by
      apply hnonneg.lt_of_ne
      intro hzero
      apply hrational
      apply hnumber.isRational
      rw [← hzero, abs_zero]
      norm_num
    apply nonneg_of_infinity
    exact unpack_mul_of_infinity hnumber hpos hy.isNumber h fun hboth => hrational hboth.1

/-- A product of numbers that are at least one is no less than its second factor. -/
theorem le_mul_of_one_le (hx : IsNumber x) (hx' : 1 ≤ value x) (hy : IsNumber y) (hy' : 1 ≤ value y) :
  y ≤ x * y
  := by
  apply hy.isNearest.le (isNearest_mul_of_one_le hx hx' hy hy')
  exact le_mul_of_one_le_left (by linarith) hx'

/-- A sum of values that are not negative is no less than its second term. -/
theorem le_add_left (hx : 0.0 ≤ x) (hy : 0.0 ≤ y) :
  y ≤ x + y
  := by
  obtain ⟨hnumber, -⟩ := zero_le_iff.mp hy
  apply hnumber.isNearest.le (isNearest_add_of_nonneg hx hy)
  linarith [(zero_le_iff.mp hx).2]

/-- No part of a cost is more than the cost. -/
theorem parts_le_cost {a b c d : Float32} (ha : 0.0 ≤ a) (hb : 0.0 ≤ b) (hc : 0.0 ≤ c) (hd : 0.0 ≤ d) :
  0.0 ≤ 0.0 + a + b + c + d ∧ a ≤ 0.0 + a + b + c + d ∧ b ≤ 0.0 + a + b + c + d
    ∧ c ≤ 0.0 + a + b + c + d
  := by
  have hzero : (0.0 : Float32) ≤ 0.0 := zero_le_iff.mpr ⟨isNumber_zero, value_zero.ge⟩
  have hone := nonneg_add hzero ha
  have htwo := nonneg_add hone hb
  have hthree := nonneg_add htwo hc
  have hthree' := le_add (infinite_lt_of_nonneg hthree) hd
  have htwo' := Single.le_trans (le_add (infinite_lt_of_nonneg htwo) hc) hthree'
  have hone' := Single.le_trans (le_add (infinite_lt_of_nonneg hone) hb) htwo'
  exact ⟨Single.le_trans hthree hthree', Single.le_trans (le_add_left hzero ha) hone',
    Single.le_trans (le_add_left hone hb) htwo', Single.le_trans (le_add_left htwo hc) hthree'⟩

end DiagramLayout.Single
