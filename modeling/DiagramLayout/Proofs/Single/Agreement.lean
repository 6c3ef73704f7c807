import DiagramLayout.Proofs.Single.Greatest

/-!
# Numbers that agree

Numbers that agree are one number, or both of them are zero, and most operations take numbers that
agree to numbers that agree. The least and the greatest of some numbers depend on which numbers there
are, and neither on their order nor on how often each of them stands there.
-/

namespace DiagramLayout.Single

open Float.Model (Format UnpackedFloat)
open Float.Model.UnpackedFloat

variable {x y z least : Float32} {list list' : List Float32}

/-! ### The two zeros -/

/-- Both are the same, or both of them are zero. -/
def Alike (u v : UnpackedFloat) : Prop :=
  u = v ∨ ∃ s t, u = .zero s ∧ v = .zero t

/-- Two zeros are alike, however their signs are chosen. -/
theorem alike_ite (c d : Prop) [Decidable c] [Decidable d] (s t s' t' : Sign) :
  Alike (if c then .zero s else .zero t) (if d then .zero s' else .zero t')
  := Or.inr ⟨_, _, (apply_ite _ _ _ _).symm, (apply_ite _ _ _ _).symm⟩

/-- The number is zero or negative zero. -/
def IsZero (x : Float32) : Prop :=
  ∃ s, x.toModel.unpack = .zero s

/-- Either zero is a number of the value zero. -/
theorem value_of_isZero (h : IsZero x) :
  IsNumber x ∧ value x = 0
  := by
  obtain ⟨s, hs⟩ := h
  constructor
  · apply isNumber_of_unpack
    rw [hs]
    exact .finite (.zero s)
  · rw [value, hs, exactValue_zero]

/-- What compares as equal by exponents and mantissas has the same of both. -/
theorem eq_of_then_eq {m n : ℕ} {e d : ℤ} (h : (compare e d).then (compare m n) = .eq) :
  e = d ∧ m = n
  := by
  rw [Ordering.then_eq_eq, compare_eq_iff_eq, compare_eq_iff_eq] at h
  exact h

/-- Numbers that compare as equal are one number, or both of them are zero. -/
theorem eq_or_zero_of_compare {u v : UnpackedFloat} (h : u.compare v = some .eq) :
  u = v ∨ ∃ s t, u = .zero s ∧ v = .zero t
  := by
  unfold UnpackedFloat.compare at h
  split at h
  case h_3 s t =>
    left
    cases s with
    | negative => cases t with
      | negative => rfl
      | positive => contradiction
    | positive => cases t with
      | negative => contradiction
      | positive => rfl
  case h_12 s t => exact Or.inr ⟨s, t, rfl, rfl⟩
  case h_13 =>
    left
    rw [Option.some.injEq, Ordering.swap_eq_eq] at h
    obtain ⟨rfl, rfl⟩ := eq_of_then_eq h
    rfl
  case h_16 =>
    left
    rw [Option.some.injEq] at h
    obtain ⟨rfl, rfl⟩ := eq_of_then_eq h
    rfl
  all_goals contradiction

/-- Numbers agree when their forms are the same or both are zeros. -/
theorem agree_iff_alike :
  Agree x y ↔ Alike x.toModel.unpack y.toModel.unpack
  := by
  constructor
  · rintro (⟨hxy, hyx⟩ | ⟨hx, hy⟩)
    · obtain ⟨hx, hy, hle⟩ := le_iff.mp hxy
      obtain ⟨-, -, hge⟩ := le_iff.mp hyx
      apply eq_or_zero_of_compare
      rw [compare_unpack hx hy, compare_eq_iff_eq.mpr (le_antisymm hle hge)]
    · left
      rw [(isNumber_or x).resolve_left hx, (isNumber_or y).resolve_left hy]
  · rw [agree_iff]
    rintro (heq | ⟨s, t, hs, ht⟩)
    · rw [eq_of_unpack heq]
    · obtain ⟨hx, hxzero⟩ := value_of_isZero ⟨s, hs⟩
      obtain ⟨hy, hyzero⟩ := value_of_isZero ⟨t, ht⟩
      rw [height_of_isNumber hx, height_of_isNumber hy, hxzero, hyzero]

/-- Numbers agree when they are the same or both are zeros. -/
theorem agree_iff_eq_or :
  Agree x y ↔ x = y ∨ IsZero x ∧ IsZero y
  := by
  rw [agree_iff_alike, Alike]
  constructor
  · rintro (heq | ⟨s, t, hs, ht⟩)
    · exact Or.inl (eq_of_unpack heq)
    · exact Or.inr ⟨⟨s, hs⟩, t, ht⟩
  · rintro (rfl | ⟨⟨s, hs⟩, t, ht⟩)
    · exact Or.inl rfl
    · exact Or.inr ⟨s, t, hs, ht⟩

/-! ### Operations on numbers that agree -/

instance : DecidableRel Agree := fun x y =>
  inferInstanceAs (Decidable (x ≤ y ∧ y ≤ x ∨ ¬IsNumber x ∧ ¬IsNumber y))

namespace Agree

theorem refl (x : Float32) :
  Agree x x
  := agree_iff.mpr rfl

theorem symm (h : Agree x y) :
  Agree y x
  := agree_iff.mpr (agree_iff.mp h).symm

theorem trans (h : Agree x y) (h' : Agree y z) :
  Agree x z
  := agree_iff.mpr ((agree_iff.mp h).trans (agree_iff.mp h'))

/-- An operation that does not tell the zeros apart, but for the sign of a zero, keeps agreement. -/
theorem lift {G : UnpackedFloat → UnpackedFloat} (hG : ∀ s t, Alike (G (.zero s)) (G (.zero t)))
    (h : Agree x y) :
  Agree (.ofModel (.pack (G x.toModel.unpack))) (.ofModel (.pack (G y.toModel.unpack)))
  := by
  rcases agree_iff_alike.mp h with heq | ⟨s, t, hs, ht⟩
  · rw [heq]
    apply refl
  · rw [hs, ht]
    rcases hG s t with heq | ⟨s', t', hs', ht'⟩
    · rw [heq]
      apply refl
    · rw [hs', ht', agree_iff_alike]
      exact Or.inr ⟨s', t', unpack_packedZero, unpack_packedZero⟩

/-- An operation that does not tell the zeros apart has one result for numbers that agree. -/
theorem lift_eq {G : UnpackedFloat → UnpackedFloat} (hG : ∀ s t, G (.zero s) = G (.zero t))
    (h : Agree x y) :
  Float32.ofModel (.pack (G x.toModel.unpack)) = .ofModel (.pack (G y.toModel.unpack))
  := by
  rcases agree_iff_alike.mp h with heq | ⟨s, t, hs, ht⟩
  · rw [heq]
  · rw [hs, ht, hG s t]

/-- Adding one number to numbers that agree gives numbers that agree. -/
theorem add (h : Agree x y) (z : Float32) :
  Agree (x + z) (y + z)
  := by
  apply h.lift (G := fun u => UnpackedFloat.add .binary32 u z.toModel.unpack)
  intro s t
  cases z.toModel.unpack with
  | zero r => apply alike_ite
  | _ => exact Or.inl rfl

/-- Adding numbers that agree to one number gives numbers that agree. -/
theorem add_left (h : Agree x y) (z : Float32) :
  Agree (z + x) (z + y)
  := by
  apply h.lift (G := UnpackedFloat.add .binary32 z.toModel.unpack)
  intro s t
  cases z.toModel.unpack with
  | zero r => apply alike_ite
  | _ => exact Or.inl rfl

/-- Subtracting one number from numbers that agree gives numbers that agree. -/
theorem sub (h : Agree x y) (z : Float32) :
  Agree (x - z) (y - z)
  := by
  apply h.lift (G := fun u => UnpackedFloat.sub .binary32 u z.toModel.unpack)
  intro s t
  cases z.toModel.unpack with
  | zero r => apply alike_ite
  | _ => exact Or.inl rfl

/-- Dividing numbers that agree by one number gives numbers that agree. -/
theorem div (h : Agree x y) (z : Float32) :
  Agree (x / z) (y / z)
  := by
  apply h.lift (G := fun u => UnpackedFloat.div .binary32 u z.toModel.unpack)
  intro s t
  cases z.toModel.unpack with
  | notANumber => exact Or.inl rfl
  | zero r => exact Or.inl rfl
  | infinity r => exact Or.inr ⟨_, _, rfl, rfl⟩
  | finite r m e hpos => exact Or.inr ⟨_, _, rfl, rfl⟩

/-- Adding a number that is not zero to numbers that agree gives one number. -/
theorem add_eq (h : Agree x y) (hz : ¬IsZero z) :
  x + z = y + z
  := by
  apply h.lift_eq (G := fun u => UnpackedFloat.add .binary32 u z.toModel.unpack)
  intro s t
  cases hu : z.toModel.unpack with
  | zero r => exact absurd ⟨r, hu⟩ hz
  | _ => rfl

/-- Subtracting numbers that agree from a number that is not zero gives one number. -/
theorem sub_left_eq (h : Agree x y) (hz : ¬IsZero z) :
  z - x = z - y
  := by
  apply h.lift_eq (G := UnpackedFloat.sub .binary32 z.toModel.unpack)
  intro s t
  cases hu : z.toModel.unpack with
  | zero r => exact absurd ⟨r, hu⟩ hz
  | _ => rfl

/-- Numbers that agree are rounded to numbers that agree, whatever the direction. -/
theorem roundBy (round : ℤ → ℕ → ℤ) (h : Agree x y) :
  Agree (Single.roundBy round x) (Single.roundBy round y)
  := by
  have hzero : ∀ {x : Float32}, IsZero x → Single.roundBy round x = x := by
    rintro x ⟨s, hs⟩
    rw [Single.roundBy, parts?, hs]
  rcases agree_iff_eq_or.mp h with rfl | ⟨hx, hy⟩
  · apply refl
  · rw [hzero hx, hzero hy]
    apply h

/-- Numbers that agree are read as one integer. -/
theorem toInt32_eq (h : Agree x y) :
  toInt32 x = toInt32 y
  := by
  rw [toInt32, toInt32, saturate, saturate]
  rcases agree_iff_alike.mp h with heq | ⟨s, t, hs, ht⟩
  · rw [heq]
  · rw [hs, ht]
    rfl

/-- Of numbers that agree both are finite or none is. -/
theorem isFinite_eq (h : Agree x y) :
  x.isFinite = y.isFinite
  := by
  rcases agree_iff_alike.mp h with heq | ⟨s, t, hs, ht⟩
  · rw [eq_of_unpack heq]
  · change x.toModel.unpack.isFinite = y.toModel.unpack.isFinite
    rw [hs, ht]
    rfl

/-- Numbers that agree are at most the same numbers. -/
theorem le_iff (h : Agree x y) :
  x ≤ z ↔ y ≤ z
  := by
  have hhalf : ∀ {x y : Float32}, Agree x y → x ≤ z → y ≤ z := by
    rintro x y (⟨-, hyx⟩ | ⟨hx, -⟩) hle
    · apply Single.le_trans hyx hle
    · exact absurd (Single.le_iff.mp hle).1 hx
  exact ⟨hhalf h, hhalf h.symm⟩

/-- The same numbers are at most numbers that agree. -/
theorem le_iff_right (h : Agree x y) :
  z ≤ x ↔ z ≤ y
  := by
  have hhalf : ∀ {x y : Float32}, Agree x y → z ≤ x → z ≤ y := by
    rintro x y (⟨hxy, -⟩ | ⟨hx, -⟩) hle
    · apply Single.le_trans hle hxy
    · exact absurd (Single.le_iff.mp hle).2.1 hx
  exact ⟨hhalf h, hhalf h.symm⟩

end Agree

/-! ### The least and the greatest of numbers that agree -/

/-- Each item of one list has a partner in the other one. -/
structure Partnered {α : Type} (R : α → α → Prop) (as bs : List α) : Prop where
  left : ∀ a ∈ as, ∃ b ∈ bs, R a b
  right : ∀ b ∈ bs, ∃ a ∈ as, R b a

instance {α : Type} {R : α → α → Prop} [DecidableRel R] (as bs : List α) :
    Decidable (Partnered R as bs) :=
  decidable_of_iff ((∀ a ∈ as, ∃ b ∈ bs, R a b) ∧ ∀ b ∈ bs, ∃ a ∈ as, R b a)
    ⟨fun h => ⟨h.1, h.2⟩, fun h => ⟨h.left, h.right⟩⟩

theorem Partnered.symm {α : Type} {R : α → α → Prop} {as bs : List α} (h : Partnered R as bs) :
  Partnered R bs as
  := ⟨h.right, h.left⟩

/-- A function that keeps the relation of partners keeps lists partnered. -/
theorem Partnered.map {α β : Type} {R : α → α → Prop} {S : β → β → Prop} {as bs : List α}
    (h : Partnered R as bs) (f : α → β) (hf : ∀ a b, R a b → S (f a) (f b)) :
  Partnered S (as.map f) (bs.map f)
  := by
  have hhalf : ∀ {as bs : List α}, (∀ a ∈ as, ∃ b ∈ bs, R a b) →
      ∀ a ∈ as.map f, ∃ b ∈ bs.map f, S a b := by
    intro as bs h c hc
    obtain ⟨a, ha, rfl⟩ := List.mem_map.mp hc
    obtain ⟨b, hb, hab⟩ := h a ha
    exact ⟨f b, List.mem_map_of_mem hb, hf a b hab⟩
  exact ⟨hhalf h.left, hhalf h.right⟩

/-- Each member of a list is its own partner in another order of the list. -/
theorem Partnered.of_perm {α : Type} {R : α → α → Prop} {as bs : List α} (hR : ∀ a, R a a)
    (h : as.Perm bs) :
  Partnered R as bs
  := ⟨fun a ha => ⟨a, h.mem_iff.mp ha, hR a⟩, fun b hb => ⟨b, h.mem_iff.mpr hb, hR b⟩⟩

/-- The greatest of some numbers is no higher than a bound when none of them is. -/
theorem height_foldl_greater_le_iff {c : WithBot ℚ} :
  height (list.foldl greater least) ≤ c ↔ height least ≤ c ∧ ∀ x ∈ list, height x ≤ c
  := by
  induction list generalizing least with
  | nil => simp
  | cons x rest ih =>
    rw [List.foldl_cons, ih, height_greater, max_le_iff, List.forall_mem_cons, and_assoc]

/-- The greatest number depends on which numbers there are, and on nothing else. -/
theorem agree_foldl_greater (h : Partnered Agree list list') (least : Float32) :
  Agree (list.foldl greater least) (list'.foldl greater least)
  := by
  have hhalf : ∀ {list list' : List Float32}, Partnered Agree list list' →
      height (list.foldl greater least) ≤ height (list'.foldl greater least) := by
    intro list list' h
    obtain ⟨hleast, hlist⟩ :=
      height_foldl_greater_le_iff.mp (le_refl (height (list'.foldl greater least)))
    apply height_foldl_greater_le_iff.mpr
    use hleast
    intro x hx
    obtain ⟨y, hy, hagree⟩ := h.left x hx
    rw [agree_iff.mp hagree]
    apply hlist y hy
  exact agree_iff.mpr (le_antisymm (hhalf h) (hhalf h.symm))

/-- The least number depends on which numbers there are, and on nothing else. -/
theorem agree_foldl_lesser (h : Partnered Agree list list') (hleast : IsNumber least) :
  Agree (list.foldl lesser least) (list'.foldl lesser least)
  := by
  have hhalf : ∀ {list list' : List Float32}, Partnered Agree list list' →
      list'.foldl lesser least ≤ list.foldl lesser least := by
    intro list list' h
    apply foldl_lesser_induction (P := fun x => IsNumber x → list'.foldl lesser least ≤ x) _ _
      (isNumber_foldl_lesser hleast list)
    · intro _
      apply foldl_lesser_le hleast List.mem_cons_self
    · intro x hx hnumber
      obtain ⟨y, hy, hxy⟩ := h.left x hx
      have hle := hxy.le_iff.mp (Single.le_refl hnumber)
      apply Single.le_trans (foldl_lesser_le (le_iff.mp hle).1 (List.mem_cons_of_mem _ hy)) hle
  exact Or.inl ⟨hhalf h.symm, hhalf h⟩

/-- From a number on that is not above zero, the least number is one and the same: where it is zero,
it is that first number. -/
theorem foldl_lesser_eq_of_nonpos (h : Partnered Agree list list') (hleast : least ≤ 0.0) :
  list.foldl lesser least = list'.foldl lesser least
  := by
  have hnumber := (le_iff.mp hleast).1
  have hagree := agree_foldl_lesser h hnumber
  rcases agree_iff_eq_or.mp hagree with heq | ⟨hzero, hzero'⟩
  · exact heq
  · have hkept : ∀ {list : List Float32}, IsZero (list.foldl lesser least) →
        list.foldl lesser least = least := by
      intro list hzero
      obtain ⟨hnumber', hvalue⟩ := value_of_isZero hzero
      apply foldl_lesser_eq hnumber
      apply Single.le_trans hleast
      rw [zero_le_iff, hvalue]
      exact ⟨hnumber', le_rfl⟩
    rw [hkept hzero, hkept hzero']

end DiagramLayout.Single
