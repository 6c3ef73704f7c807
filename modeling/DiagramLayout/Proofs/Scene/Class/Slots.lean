import DiagramLayout.Proofs.Catalog
import DiagramLayout.Scene.Class.Slot

/-!
# Slots of some of the inheritances

The inheritances to a parent share one of its sides. So an inheritance keeps its slot when others are
left out, as long as none of them leads to its parent.
-/

namespace DiagramLayout

namespace Slot

variable {nodes : Catalog Node} {relations : List ClassRelation} {r : ClassRelation}
  {parent id : String} {slot : Slot} {p : ClassRelation → Bool}

/-- The number of inheritances to a parent. -/
def heirCount (relations : List ClassRelation) (parent : String) : ℕ :=
  relations.countP fun r => r.kind = .inheritance && r.target = parent

/-- The relations that are kept hold every inheritance to the parent of an inheritance of this id. -/
def IsKept (p : ClassRelation → Bool) (relations : List ClassRelation) (id : String) : Prop :=
  ∀ r ∈ relations, r.kind = .inheritance → r.id = id →
    ∀ other ∈ relations, other.kind = .inheritance → other.target = r.target → p other = true

instance : Decidable (IsKept p relations id) :=
  inferInstanceAs (Decidable (∀ r ∈ relations, _))

/-! ### The slots of one parent -/

/-- There are as many siblings as inheritances to the parent. -/
theorem length_siblings :
  (siblings nodes relations parent).length = heirCount relations parent
  := by
  rw [siblings, List.length_mergeSort, heirCount, List.countP_eq_length_filter]

/-- The siblings are the inheritances to the parent. -/
theorem mem_siblings :
  r ∈ siblings nodes relations parent ↔ r ∈ relations ∧ r.kind = .inheritance ∧ r.target = parent
  := by
  rw [siblings, List.mem_mergeSort, List.mem_filter, Bool.and_eq_true, decide_eq_true_eq,
    decide_eq_true_eq]

/-- The slots of a parent number its siblings in their order. -/
theorem mem_ofParent_iff {e : String × Slot} :
  e ∈ ofParent nodes relations parent
    ↔ ∃ (rank : ℕ) (h : rank < (siblings nodes relations parent).length),
      ((siblings nodes relations parent)[rank].id, Slot.mk rank (heirCount relations parent)) = e
  := by
  simp only [ofParent, List.mem_mapIdx, length_siblings]

/-- The slot of an inheritance has a rank that is less than the number of siblings. -/
theorem exists_of_mem_ofParent {e : String × Slot} (h : e ∈ ofParent nodes relations parent) :
  e.2.rank < e.2.count ∧ e.2.count = heirCount relations parent
    ∧ ∃ r ∈ relations, r.kind = .inheritance ∧ r.target = parent ∧ r.id = e.1
  := by
  obtain ⟨rank, hrank, rfl⟩ := mem_ofParent_iff.mp h
  obtain ⟨hmem, hkind, htarget⟩ := mem_siblings.mp (List.getElem_mem hrank)
  rw [length_siblings] at hrank
  exact ⟨hrank, rfl, _, hmem, hkind, htarget, rfl⟩

/-- Every inheritance has a slot of its parent. -/
theorem exists_mem_ofParent (nodes : Catalog Node) (hr : r ∈ relations)
    (hkind : r.kind = .inheritance) :
  ∃ e ∈ ofParent nodes relations r.target, e.1 = r.id
  := by
  obtain ⟨rank, hrank, hsibling⟩ := List.getElem_of_mem (mem_siblings.mpr ⟨hr, hkind, rfl⟩)
  refine ⟨_, mem_ofParent_iff.mpr ⟨rank, hrank, rfl⟩, ?_⟩
  rw [hsibling]

theorem mem_parents :
  parent ∈ parents relations ↔ ∃ r ∈ relations, r.kind = .inheritance ∧ r.target = parent
  := by
  simp only [parents, List.mem_eraseDups, List.mem_map, List.mem_filter, decide_eq_true_eq, and_assoc]

/-! ### All slots -/

/-- A slot is one of an inheritance of its id, on a side with all inheritances to the same parent. -/
theorem exists_of_find?_all (h : (all nodes relations).find? id = some slot) :
  slot.rank < slot.count
    ∧ ∃ r ∈ relations, r.kind = .inheritance ∧ r.id = id ∧ slot.count = heirCount relations r.target
  := by
  have hall : ∀ e ∈ (all nodes relations).entries, e.2.rank < e.2.count ∧ ∃ r ∈ relations,
      r.kind = .inheritance ∧ r.id = e.1 ∧ e.2.count = heirCount relations r.target := by
    apply Catalog.forall_entries_ofList (P := fun id (slot : Slot) => slot.rank < slot.count
      ∧ ∃ r ∈ relations, r.kind = .inheritance ∧ r.id = id ∧ slot.count = heirCount relations r.target)
    intro e he
    obtain ⟨parent, -, he⟩ := List.mem_flatMap.mp he
    obtain ⟨hrank, hcount, r, hr, hkind, rfl, hid⟩ := exists_of_mem_ofParent he
    exact ⟨hrank, r, hr, hkind, hid, hcount⟩
  exact hall (id, slot) (Catalog.find?_eq_some_iff.mp h)

/-- Every inheritance has a slot. -/
theorem exists_find?_all (nodes : Catalog Node) (hr : r ∈ relations) (hkind : r.kind = .inheritance) :
  ∃ slot, (all nodes relations).find? r.id = some slot
  := by
  obtain ⟨e, he, hid⟩ := exists_mem_ofParent nodes hr hkind
  rw [Catalog.exists_find?_iff, all, Catalog.mem_keys_ofList, ← hid]
  apply List.mem_map_of_mem
  exact List.mem_flatMap.mpr ⟨r.target, mem_parents.mpr ⟨r, hr, hkind, rfl⟩, he⟩

/-! ### Leaving relations out -/

theorem filter_eraseDups (q : String → Bool) (names : List String) :
  (names.filter q).eraseDups = names.eraseDups.filter q
  := by
  cases names with
  | nil => rfl
  | cons first rest =>
    have hrest := filter_eraseDups q (rest.filter fun name => !name == first)
    rw [List.eraseDups_cons]
    cases hfirst : q first with
    | true =>
      rw [List.filter_cons_of_pos hfirst, List.filter_cons_of_pos hfirst, List.eraseDups_cons,
        List.filter_comm, hrest]
    | false =>
      rw [List.filter_cons_of_neg (by simp [hfirst]), List.filter_cons_of_neg (by simp [hfirst]),
        ← hrest, List.filter_filter]
      -- The names that are equal to the first one are left out anyway.
      congr 1
      apply List.filter_congr
      intro name _
      rw [eq_comm, Bool.and_eq_left_iff_imp]
      intro hname
      rw [Bool.not_eq_true', beq_eq_false_iff_ne]
      rintro rfl
      rw [hfirst] at hname
      contradiction
termination_by names.length
decreasing_by exact Nat.lt_succ_of_le (List.length_filter_le _ _)

theorem flatMap_filter {α β : Type} {q : α → Bool} {items : List α} {f : α → List β}
    (h : ∀ a ∈ items, q a = false → f a = []) :
  (items.filter q).flatMap f = items.flatMap f
  := by
  induction items with
  | nil => rfl
  | cons a rest ih =>
    obtain ⟨ha, hrest⟩ := List.forall_mem_cons.mp h
    cases hq : q a with
    | true => rw [List.filter_cons_of_pos hq, List.flatMap_cons, List.flatMap_cons, ih hrest]
    | false =>
      rw [List.filter_cons_of_neg (by simp [hq]), List.flatMap_cons, ha hq, List.nil_append, ih hrest]

/-- The parents of which something holds are those of the relations of whose targets it holds. -/
theorem filter_parents (q : String → Bool) :
  (parents relations).filter q = parents (relations.filter fun r => q r.target)
  := by
  rw [parents, parents, ← filter_eraseDups, List.filter_map, List.filter_comm]
  rfl

/-- Only inheritances matter to the parents. -/
theorem parents_filter_congr {q : ClassRelation → Bool}
    (h : ∀ r ∈ relations, r.kind = .inheritance → p r = q r) :
  parents (relations.filter p) = parents (relations.filter q)
  := by
  rw [parents, parents, List.filter_filter, List.filter_filter]
  congr 2
  apply List.filter_congr
  intro r hr
  cases hkind : decide (r.kind = .inheritance) with
  | false => rfl
  | true => rw [h r hr (of_decide_eq_true hkind)]

/-- The slots of a parent stay when all inheritances to it are kept. -/
theorem ofParent_filter
    (h : ∀ r ∈ relations, r.kind = .inheritance → r.target = parent → p r = true) :
  ofParent nodes (relations.filter p) parent = ofParent nodes relations parent
  := by
  have hsiblings : siblings nodes (relations.filter p) parent = siblings nodes relations parent := by
    rw [siblings, siblings, List.filter_filter]
    congr 1
    apply List.filter_congr
    intro r hr
    rw [Bool.and_eq_left_iff_imp, Bool.and_eq_true, decide_eq_true_eq, decide_eq_true_eq]
    rintro ⟨hkind, htarget⟩
    exact h r hr hkind htarget
  rw [ofParent, ofParent, hsiblings]

/-- The slots of an id are found at parents of inheritances of this id. -/
theorem filter_slots {q : String → Bool}
    (h : ∀ r ∈ relations, r.kind = .inheritance → r.id = id → q r.target = true) :
  ((parents relations).flatMap (ofParent nodes relations)).filter (fun e => e.1 = id)
    = ((parents relations).filter q).flatMap fun parent =>
      (ofParent nodes relations parent).filter fun e => e.1 = id
  := by
  rw [List.filter_flatMap, flatMap_filter]
  intro parent _ hq
  rw [List.filter_eq_nil_iff]
  intro e he hid
  obtain ⟨-, -, r, hr, hkind, rfl, heq⟩ := exists_of_mem_ofParent he
  rw [h r hr hkind (heq.trans (of_decide_eq_true hid))] at hq
  contradiction

/-- An inheritance keeps its slot when all inheritances to its parent are kept. -/
theorem find?_all_filter (h : IsKept p relations id) :
  (all nodes (relations.filter p)).find? id = (all nodes relations).find? id
  := by
  classical
  -- The parents of the inheritances of the id.
  let q : String → Bool := fun parent =>
    ∃ r ∈ relations, r.kind = .inheritance ∧ r.id = id ∧ r.target = parent
  have hparent : ∀ r ∈ relations, r.kind = .inheritance → r.id = id → q r.target = true :=
    fun r hr hkind hid => decide_eq_true ⟨r, hr, hkind, hid, rfl⟩
  have hkept : ∀ r ∈ relations, r.kind = .inheritance → q r.target = true → p r = true := by
    intro r hr hkind hq
    obtain ⟨other, hother, hkind', hid, htarget⟩ := of_decide_eq_true hq
    exact h other hother hkind' hid r hr hkind htarget.symm
  have hparents : (parents (relations.filter p)).filter q = (parents relations).filter q := by
    rw [filter_parents, filter_parents, List.filter_filter]
    apply parents_filter_congr
    intro r hr hkind
    rw [Bool.and_eq_left_iff_imp]
    exact hkept r hr hkind
  rw [all, all, Catalog.find?_ofList, Catalog.find?_ofList, filter_slots hparent,
    filter_slots fun r hr => hparent r (List.mem_of_mem_filter hr), hparents]
  congr 2
  apply List.flatMap_congr
  intro parent hmem
  rw [ofParent_filter]
  rintro r hr hkind rfl
  exact hkept r hr hkind (List.mem_filter.mp hmem).2

/-- The inheritances to a parent are those that are kept and those that are not. -/
theorem heirCount_filter (p : ClassRelation → Bool) (relations : List ClassRelation)
    (parent : String) :
  heirCount (relations.filter p) parent + heirCount (relations.filter fun r => !p r) parent
    = heirCount relations parent
  := (List.countP_eq_countP_filter_add relations _ p).symm

section Distinct

variable (hdistinct : (relations.map ClassRelation.id).Nodup)

include hdistinct

/-- The slot of an inheritance counts all inheritances to its parent. -/
theorem count_of_find?_all (hr : r ∈ relations)
    (h : (all nodes relations).find? r.id = some slot) :
  slot.count = heirCount relations r.target
  := by
  obtain ⟨-, other, hother, -, hid, hcount⟩ := exists_of_find?_all h
  rw [hcount, List.inj_on_of_nodup_map hdistinct hother hr hid]

/-- An inheritance keeps its slot only when all inheritances to its parent are kept. -/
theorem find?_all_filter_iff (hr : r ∈ relations) (hkind : r.kind = .inheritance)
    (hkept : p r = true) :
  (all nodes (relations.filter p)).find? r.id = (all nodes relations).find? r.id
    ↔ IsKept p relations r.id
  := by
  refine ⟨?_, find?_all_filter⟩
  intro heq first hfirst _ hid other hother hkind' htarget
  obtain rfl := List.inj_on_of_nodup_map hdistinct hfirst hr hid
  have hmem : first ∈ relations.filter p := List.mem_filter.mpr ⟨hr, hkept⟩
  have hdistinct' : ((relations.filter p).map ClassRelation.id).Nodup :=
    hdistinct.sublist (List.filter_sublist.map _)
  obtain ⟨slot, hslot⟩ := exists_find?_all nodes hr hkind
  have hcount := count_of_find?_all hdistinct hr hslot
  have hcount' := count_of_find?_all hdistinct' hmem (heq.trans hslot)
  have hnone : heirCount (relations.filter fun r => !p r) first.target = 0 := by
    have hsplit := heirCount_filter p relations first.target
    omega
  by_contra hdropped
  apply List.countP_eq_zero.mp hnone other
  · rw [List.mem_filter, Bool.not_eq_true']
    exact ⟨hother, Bool.eq_false_iff.mpr hdropped⟩
  · rw [Bool.and_eq_true, decide_eq_true_eq, decide_eq_true_eq]
    exact ⟨hkind', htarget⟩

end Distinct

end Slot

end DiagramLayout
