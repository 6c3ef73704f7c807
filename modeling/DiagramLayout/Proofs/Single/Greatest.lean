import DiagramLayout.Proofs.Single.Magnitude
import Mathlib.Order.WithBot

/-!
# The greatest and the least of single-precision numbers

The greatest of some numbers is one of them and not below any other, and the least of them is one of
them and not above any other. `height` places what is not a number below all numbers, and the height
of the greater of two is the greater height. A number that is held to an interval with whole ends is
whole if it was rounded before.
-/

namespace DiagramLayout.Single

open Float.Model (Format UnpackedFloat)
open Float.Model.UnpackedFloat

variable {x y z least : Float32} {list : List Float32}

/-! ### The greatest of a list -/

/-- The greater of two numbers is no less than the first. -/
theorem le_greater_left (hx : IsNumber x) (y : Float32) :
  x ≤ greater x y
  := by
  have hnumber : x.isNaN = false := hx
  simp only [greater, hnumber, Bool.false_eq_true, if_false]
  split_ifs with hlt
  · apply Single.le_of_lt hlt
  · apply Single.le_refl hx

/-- A running maximum is no less than any number of the list, nor than the value it starts from. -/
theorem le_foldl_greater (hx : IsNumber x) (h : x ∈ least :: list) :
  x ≤ list.foldl greater least
  := by
  induction list generalizing least x with
  | nil =>
    rw [List.mem_singleton.mp h] at hx ⊢
    apply Single.le_refl hx
  | cons y rest ih =>
    rw [List.foldl_cons]
    have hfirst : x ≤ greater least y → x ≤ rest.foldl greater (greater least y) := by
      intro hle
      apply Single.le_trans hle
      apply ih (le_iff.mp hle).2.1
      apply List.mem_cons_self
    rcases List.mem_cons.mp h with rfl | h
    · apply hfirst (le_greater_left hx y)
    · rcases List.mem_cons.mp h with rfl | h
      · apply hfirst (le_greater least hx)
      · apply ih hx (List.mem_cons_of_mem _ h)

/-- The greater of two values is one of them. -/
theorem greater_eq_or (x y : Float32) :
  greater x y = x ∨ greater x y = y
  := by
  rw [greater]
  split_ifs
  · right
    rfl
  · right
    rfl
  · left
    rfl

/-- What holds of all numbers holds of the greatest one. -/
theorem foldl_greater_induction {P : Float32 → Prop} (hleast : P least) (hlist : ∀ x ∈ list, P x) :
  P (list.foldl greater least)
  := by
  apply List.foldlRecOn list greater hleast
  intro x hx y hy
  rcases greater_eq_or x y with h | h
  · rw [h]
    exact hx
  · rw [h]
    apply hlist y hy

/-! ### The least of a list -/

/-- The lesser of two values is one of them. -/
theorem lesser_eq_or (x y : Float32) :
  lesser x y = x ∨ lesser x y = y
  := by
  rw [lesser]
  split_ifs
  · right
    rfl
  · right
    rfl
  · left
    rfl

/-- The lesser of two numbers is at most the second one, also when the first one is no number. -/
theorem lesser_le (x : Float32) (hy : IsNumber y) :
  lesser x y ≤ y
  := by
  unfold lesser
  split_ifs with hnan hlt
  · exact le_of_value hy hy le_rfl
  · exact le_of_value hy hy le_rfl
  · have hx : IsNumber x := by simpa [IsNumber] using hnan
    exact le_of_not_lt hy hx hlt

/-- The lesser of two numbers is no more than the first. -/
theorem lesser_le_left (hx : IsNumber x) (y : Float32) :
  lesser x y ≤ x
  := by
  have hnumber : x.isNaN = false := hx
  simp only [lesser, hnumber, Bool.false_eq_true, if_false]
  split_ifs with hlt
  · apply Single.le_of_lt hlt
  · apply Single.le_refl hx

/-- A running minimum is no more than any number of the list, nor than the value it starts from. -/
theorem foldl_lesser_le (hx : IsNumber x) (h : x ∈ least :: list) :
  list.foldl lesser least ≤ x
  := by
  induction list generalizing least x with
  | nil =>
    rw [List.mem_singleton.mp h] at hx ⊢
    apply Single.le_refl hx
  | cons y rest ih =>
    rw [List.foldl_cons]
    have hfirst : lesser least y ≤ x → rest.foldl lesser (lesser least y) ≤ x := by
      intro hle
      apply Single.le_trans _ hle
      apply ih (le_iff.mp hle).1
      apply List.mem_cons_self
    rcases List.mem_cons.mp h with rfl | h
    · apply hfirst (lesser_le_left hx y)
    · rcases List.mem_cons.mp h with rfl | h
      · apply hfirst (lesser_le least hx)
      · apply ih hx (List.mem_cons_of_mem _ h)

/-- A running minimum that starts from a number is a number, whatever the list holds. -/
theorem isNumber_foldl_lesser (h : IsNumber least) (list : List Float32) :
  IsNumber (list.foldl lesser least)
  := (le_iff.mp (foldl_lesser_le h List.mem_cons_self)).1

/-- What holds of all numbers holds of the least one. -/
theorem foldl_lesser_induction {P : Float32 → Prop} (hleast : P least) (hlist : ∀ x ∈ list, P x) :
  P (list.foldl lesser least)
  := by
  apply List.foldlRecOn list lesser hleast
  intro x hx y hy
  rcases lesser_eq_or x y with h | h
  · rw [h]
    exact hx
  · rw [h]
    apply hlist y hy

/-- Where no number is below the first one, this one is kept, with its sign. -/
theorem foldl_lesser_eq (hleast : IsNumber least) (h : least ≤ list.foldl lesser least) :
  list.foldl lesser least = least
  := by
  have hkeep : ∀ y ∈ list, lesser least y = least := by
    intro y hy
    have hnumber : least.isNaN = false := hleast
    simp only [lesser, hnumber, Bool.false_eq_true, if_false]
    apply if_neg
    intro hlt
    have hle := Single.le_trans h (foldl_lesser_le (lt_iff.mp hlt).1 (List.mem_cons_of_mem _ hy))
    exact absurd (lt_iff.mp hlt).2.2 (not_lt.mpr (le_iff.mp hle).2.2)
  apply List.foldlRecOn (motive := (· = least)) list lesser rfl
  rintro _ rfl y hy
  apply hkeep y hy

/-! ### Numbers that agree -/

/-- The numbers are equal up to the sign of zero, or neither of them is a number. -/
def Agree (x y : Float32) : Prop :=
  x ≤ y ∧ y ≤ x ∨ ¬IsNumber x ∧ ¬IsNumber y

/-- The value of a number; what is not a number stands below all values. -/
def height (x : Float32) : WithBot ℚ :=
  if x.isNaN then ⊥ else value x

theorem height_of_isNumber (h : IsNumber x) :
  height x = value x
  := by
  have hnumber : x.isNaN = false := h
  rw [height, hnumber, if_neg Bool.false_ne_true]

theorem height_of_not_isNumber (h : ¬IsNumber x) :
  height x = ⊥
  := by
  rw [height, if_pos (Bool.not_eq_false _ ▸ h)]

/-- Two values agree when their heights are equal: heights forget only the sign of a zero. -/
theorem agree_iff :
  Agree x y ↔ height x = height y
  := by
  rw [Agree, le_iff, le_iff]
  by_cases hx : IsNumber x
  · by_cases hy : IsNumber y
    · rw [height_of_isNumber hx, height_of_isNumber hy, WithBot.coe_inj, le_antisymm_iff]
      tauto
    · rw [height_of_isNumber hx, height_of_not_isNumber hy, iff_false_right WithBot.coe_ne_bot]
      tauto
  · by_cases hy : IsNumber y
    · rw [height_of_not_isNumber hx, height_of_isNumber hy, iff_false_right WithBot.bot_ne_coe]
      tauto
    · rw [height_of_not_isNumber hx, height_of_not_isNumber hy]
      tauto

/-- On heights the greater of two values is the maximum, a value that is no number counting as
least. -/
theorem height_greater (x y : Float32) :
  height (greater x y) = max (height x) (height y)
  := by
  by_cases hx : IsNumber x
  · have hnumber : x.isNaN = false := hx
    simp only [greater, hnumber, Bool.false_eq_true, if_false]
    by_cases hy : IsNumber y
    · rw [height_of_isNumber hx, height_of_isNumber hy]
      split_ifs with hlt
      · rw [height_of_isNumber hy, max_eq_right]
        exact_mod_cast (lt_iff.mp hlt).2.2.le
      · rw [height_of_isNumber hx, max_eq_left]
        exact_mod_cast (le_iff.mp (le_of_not_lt hx hy hlt)).2.2
    · rw [if_neg (mt (fun hlt => (lt_iff.mp hlt).2.1) hy), height_of_not_isNumber hy, max_bot_right]
  · rw [greater, if_pos (Bool.not_eq_false _ ▸ hx), height_of_not_isNumber hx, max_bot_left]

/-! ### Rounding and holding to an interval -/

/-- What is not a rational number, or too large to have a fraction, stays as it is when it is
rounded. -/
theorem roundBy_eq_self_or (round : ℤ → ℕ → ℤ) (x : Float32) :
  roundBy round x = x ∨ IsRational x ∧ |value x| ≤ 2 ^ 23
  := by
  rcases isNumber_or x with hx | hx
  · have ho := hx.isOrdered
    unfold roundBy parts? IsRational value
    cases hu : x.toModel.unpack with
    | finite s m e hpos => cases e with
      | ofNat e => exact Or.inl rfl
      | negSucc k =>
        right
        rw [hu] at ho
        cases ho with | finite hfinite => cases hfinite with | finite _ _ hc he =>
        use IsFinite.finite s hpos hc he
        have hm : (m : ℚ) < 2 ^ 24 := by exact_mod_cast hc.lt
        have hpow : (2 : ℚ) ^ Int.negSucc k ≤ 2 ^ (-1 : ℤ) :=
          zpow_le_zpow_right₀ (by norm_num) (by omega)
        rw [exactValue_finite, abs_signed, abs_of_pos (by positivity)]
        calc (m : ℚ) * 2 ^ Int.negSucc k ≤ 2 ^ 24 * 2 ^ (-1 : ℤ) := by gcongr
          _ = 2 ^ 23 := by norm_num
    | _ => exact Or.inl rfl
  · left
    rw [roundBy, parts?, hx]

/-- A number is no more than its ceiling. -/
theorem le_ceil (hx : IsNumber x) :
  x ≤ ceil x
  := by
  rcases roundBy_eq_self_or ceilDiv x with hself | ⟨hrational, hbound⟩
  · rw [ceil, hself]
    apply Single.le_refl hx
  · obtain ⟨hwhole, -⟩ := isWhole_ceil hrational hbound
    apply le_of_value hx hwhole.isNumber
    rw [hwhole.value_eq]
    apply Int.le_ceil

/-- A number that is rounded up and held to an interval of whole numbers is whole. -/
theorem exists_isWhole_clamp {lo hi : Float32} {m n : ℤ} (hlo : IsWhole lo m) (hhi : IsWhole hi n)
    (hm : 0 ≤ m) (hmn : m ≤ n) (hn : n ≤ 2 ^ 23) (x : Float32) :
  ∃ k, IsWhole (greater (lesser (ceil x) hi) lo) k ∧ m ≤ k ∧ k ≤ n
  := by
  have hofWhole : ∀ {c : Float32} {k : ℤ}, IsWhole c k → k ≤ n →
      ∃ k, IsWhole (greater c lo) k ∧ m ≤ k ∧ k ≤ n := by
    intro c k hc hk
    exact ⟨_, hc.greater hlo, le_max_right k m, max_le hk hmn⟩
  by_cases h : IsRational x ∧ |value x| ≤ 2 ^ 23
  · apply hofWhole ((isWhole_ceil h.1 h.2).1.lesser hhi) (min_le_right _ n)
  · rw [ceil, (roundBy_eq_self_or _ x).resolve_right h, lesser]
    split_ifs with hnan hlt
    · apply hofWhole hhi le_rfl
    · apply hofWhole hhi le_rfl
    · -- A number that is not above the interval is below it, as it has no fraction.
      have hx : IsNumber x := Bool.eq_false_iff.mpr hnan
      have hle := (le_iff.mp (le_of_not_lt hhi.isNumber hx hlt)).2.2
      have hneg : value x < 0 := by
        by_contra! hnonneg
        have hbound : |value x| ≤ 2 ^ 23 := by
          rw [abs_of_nonneg hnonneg]
          rw [hhi.value_eq] at hle
          exact hle.trans (by exact_mod_cast hn)
        apply h ⟨hx.isRational (hbound.trans_lt (by norm_num)), hbound⟩
      have hlo' : x < lo := by
        apply lt_of_value hx hlo.isNumber (hneg.trans_le _)
        rw [hlo.value_eq]
        exact_mod_cast hm
      rw [greater, if_neg hnan, if_pos hlo']
      exact ⟨m, hlo, le_rfl, hmn⟩

end DiagramLayout.Single
