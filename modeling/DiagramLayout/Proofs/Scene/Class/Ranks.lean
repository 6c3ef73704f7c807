import DiagramLayout.Proofs.Scene.Class.Slots
import DiagramLayout.Proofs.Single.Precedence
import Mathlib.Data.List.NodupEquivFin

/-!
# Ranks of heirs

The inheritances to a parent are counted from left to right, and those whose heirs stand equally far in the
order in which they were written. Where relations have distinct ids, each rank among them is that of exactly
one inheritance.
-/

namespace DiagramLayout.Slot

variable {nodes : Catalog Node} {relations : List ClassRelation} {r s : ClassRelation}
  {parent id : String} {slot : Slot} {i j : ℕ}

/-- The inheritances to a parent in the order in which they were written. -/
def heirs (relations : List ClassRelation) (parent : String) : List ClassRelation :=
  relations.filter fun r => r.kind = .inheritance && r.target = parent

/-- How far to the right the middle of the box of an heir is, 0 for an heir that has no box. -/
def middle (nodes : Catalog Node) (r : ClassRelation) : Float32 :=
  match nodes.find? r.source with
  | some node => node.box.x + node.box.width / 2.0
  | none => 0.0

/-- The inheritances have slots, and only they have; the slots of those to one parent are all its ranks.
One of them has a less rank than another when the middle of its heir comes first in the total order, and
also when neither middle does and it was written first. -/
structure AreRanked (nodes : Catalog Node) (relations : List ClassRelation) : Prop where
  owner (r : ClassRelation) : r ∈ relations →
    ((∃ slot, (all nodes relations).find? r.id = some slot) ↔ r.kind = .inheritance)
  stray (id : String) : id ∉ relations.map ClassRelation.id → (all nodes relations).find? id = none
  ranks (parent : String) :
    ((heirs relations parent).map fun r => (all nodes relations).find? r.id).Perm
      ((List.range (heirs relations parent).length).map fun rank =>
        some ⟨rank, (heirs relations parent).length⟩)
  order (i j : ℕ) (r s : ClassRelation) : relations[i]? = some r → relations[j]? = some s →
    r.kind = .inheritance → s.kind = .inheritance → r.target = s.target →
    Single.Precedes (middle nodes r) (middle nodes s)
      ∨ ¬Single.Precedes (middle nodes s) (middle nodes r) ∧ i < j →
    ∃ a b, (all nodes relations).find? r.id = some a ∧ (all nodes relations).find? s.id = some b
      ∧ a.rank < b.rank

/-! ### From left to right -/

/-- Heirs are sorted by the middles of their boxes. -/
theorem heirX_eq (nodes : Catalog Node) (r : ClassRelation) :
  heirX nodes r = middle nodes r
  := by
  rw [heirX, middle]
  cases nodes.find? r.source with
  | none => rfl
  | some node => rfl

/-- Whether the first heir is sorted before the second one or may stand beside it. -/
def isLeft (nodes : Catalog Node) (r s : ClassRelation) : Bool :=
  Single.rank (heirX nodes r) ≤ Single.rank (heirX nodes s)

/-- Heirs are sorted by the total order of their middles. -/
theorem isLeft_iff :
  isLeft nodes r s = true ↔ ¬Single.Precedes (middle nodes s) (middle nodes r)
  := by
  rw [isLeft, decide_eq_true_eq, heirX_eq, heirX_eq, Single.rank_le_rank_iff]

/-- The order of heirs is transitive. -/
theorem isLeft_trans (nodes : Catalog Node) (a b c : ClassRelation) (hab : isLeft nodes a b = true)
    (hbc : isLeft nodes b c = true) :
  isLeft nodes a c = true
  := by
  rw [isLeft, decide_eq_true_eq] at hab hbc ⊢
  exact hab.trans hbc

/-- The order of heirs is total. -/
theorem isLeft_total (nodes : Catalog Node) (a b : ClassRelation) :
  (isLeft nodes a b || isLeft nodes b a) = true
  := by
  rw [Bool.or_eq_true, isLeft, isLeft, decide_eq_true_eq, decide_eq_true_eq]
  exact le_total _ _

/-- The siblings are the heirs in another order. -/
theorem siblings_perm (nodes : Catalog Node) (relations : List ClassRelation) (parent : String) :
  (siblings nodes relations parent).Perm (heirs relations parent)
  := List.mergeSort_perm _ _

/-- An earlier sibling is not to the right of a later one. -/
theorem isLeft_of_lt (hi : (siblings nodes relations parent)[i]? = some r)
    (hj : (siblings nodes relations parent)[j]? = some s) (hij : i < j) :
  isLeft nodes r s = true
  := by
  have hsorted : (siblings nodes relations parent).Pairwise fun a b => isLeft nodes a b = true :=
    List.pairwise_mergeSort (isLeft_trans nodes) (isLeft_total nodes) (heirs relations parent)
  obtain ⟨hlt, rfl⟩ := List.getElem?_eq_some_iff.mp hi
  obtain ⟨hlt', rfl⟩ := List.getElem?_eq_some_iff.mp hj
  exact List.pairwise_iff_getElem.mp hsorted i j hlt hlt' hij

/-- Of two items, the one at the lesser place stands in front. -/
theorem pair_sublist_of_lt {α : Type} {list : List α} {a b : α} (hi : list[i]? = some a)
    (hj : list[j]? = some b) (hij : i < j) :
  [a, b].Sublist list
  := by
  have hfront : a ∈ list.take j := by
    apply List.mem_of_getElem?
    rw [List.getElem?_take_of_lt hij, hi]
  have hback : b ∈ list.drop j := by
    apply List.mem_of_getElem? (i := 0)
    rw [List.getElem?_drop, Nat.add_zero, hj]
  rw [← List.take_append_drop j list]
  exact (List.singleton_sublist.mpr hfront).append (List.singleton_sublist.mpr hback)

/-- The heirs of a parent stand in the order of the relations. -/
theorem pair_sublist_heirs (h : [r, s].Sublist relations) (hr : r.kind = .inheritance)
    (hs : s.kind = .inheritance) (htarget : r.target = s.target) :
  [r, s].Sublist (heirs relations s.target)
  := by
  have hheirs : heirs [r, s] s.target = [r, s] := by simp [heirs, hr, hs, htarget]
  rw [← hheirs]
  exact h.filter _

/-- The item that stands in front is at the lesser place, when no item is repeated. -/
theorem lt_of_pair_sublist {α : Type} {list : List α} {a b : α} (hnodup : list.Nodup)
    (h : [a, b].Sublist list) (hi : list[i]? = some a) (hj : list[j]? = some b) :
  i < j
  := by
  obtain ⟨f, hf⟩ := List.sublist_iff_exists_orderEmbedding_getElem?_eq.mp h
  have hat : ∀ {k n : ℕ} {c : α}, list[k]? = some c → some c = list[n]? → k = n := by
    intro k n c hk hn
    obtain ⟨hlength, -⟩ := List.getElem?_eq_some_iff.mp hk
    exact (List.getElem?_inj hlength hnodup).mp (hk.trans hn)
  rw [hat hi (hf 0), hat hj (hf 1), f.lt_iff_lt]
  exact Nat.zero_lt_one

/-! ### Slots as ranks -/

section Distinct

variable (hdistinct : (relations.map ClassRelation.id).Nodup)

include hdistinct

/-- No sibling is repeated, when relations have different ids. -/
theorem nodup_siblings (nodes : Catalog Node) (parent : String) :
  (siblings nodes relations parent).Nodup
  := (siblings_perm nodes relations parent).nodup_iff.mpr (hdistinct.of_map.filter _)

/-- The slot of a relation is its place among the inheritances to its parent. -/
theorem getElem?_of_find?_all (hr : r ∈ relations) (h : (all nodes relations).find? r.id = some slot) :
  (siblings nodes relations r.target)[slot.rank]? = some r
    ∧ slot.count = (heirs relations r.target).length
  := by
  have hall : ∀ e ∈ (all nodes relations).entries, ∃ parent, e ∈ ofParent nodes relations parent := by
    apply Catalog.forall_entries_ofList (P := fun id slot =>
      ∃ parent, (id, slot) ∈ ofParent nodes relations parent)
    intro e he
    obtain ⟨parent, -, he⟩ := List.mem_flatMap.mp he
    exact ⟨parent, he⟩
  obtain ⟨parent, hslot⟩ := hall _ (Catalog.find?_eq_some_iff.mp h)
  obtain ⟨rank, hrank, heq⟩ := mem_ofParent_iff.mp hslot
  obtain ⟨hid, rfl⟩ := Prod.mk.inj heq
  obtain ⟨hmem, -, htarget⟩ := mem_siblings.mp (List.getElem_mem hrank)
  have hsame := List.inj_on_of_nodup_map hdistinct hmem hr hid
  rw [hsame] at htarget
  subst htarget
  exact ⟨List.getElem?_eq_some_iff.mpr ⟨hrank, hsame⟩, List.countP_eq_length_filter⟩

/-- The slot of a sibling has its place as the rank. -/
theorem find?_all_of_getElem? (h : (siblings nodes relations parent)[i]? = some r) :
  (all nodes relations).find? r.id = some ⟨i, (heirs relations parent).length⟩
  := by
  obtain ⟨hr, hkind, rfl⟩ := mem_siblings.mp (List.mem_of_getElem? h)
  obtain ⟨slot, hslot⟩ := exists_find?_all nodes hr hkind
  obtain ⟨hrank, hcount⟩ := getElem?_of_find?_all hdistinct hr hslot
  obtain ⟨hlt, -⟩ := List.getElem?_eq_some_iff.mp h
  have heq : i = slot.rank :=
    (List.getElem?_inj hlt (nodup_siblings hdistinct nodes r.target)).mp (h.trans hrank.symm)
  rw [hslot, heq, ← hcount]

/-- The slots of the siblings have all ranks, in order. -/
theorem map_find?_siblings (nodes : Catalog Node) (parent : String) :
  (siblings nodes relations parent).map (fun r => (all nodes relations).find? r.id)
    = (List.range (heirs relations parent).length).map fun rank =>
      some ⟨rank, (heirs relations parent).length⟩
  := by
  apply List.ext_getElem
  · rw [List.length_map, List.length_map, List.length_range,
      (siblings_perm nodes relations parent).length_eq]
  · intro i hi _
    rw [List.length_map] at hi
    rw [List.getElem_map, List.getElem_map, List.getElem_range]
    exact find?_all_of_getElem? hdistinct (List.getElem?_eq_getElem hi)

/-- The slots of two inheritances are in the order of their heirs. -/
theorem rank_lt (hr : (siblings nodes relations parent)[i]? = some r)
    (hs : (siblings nodes relations parent)[j]? = some s)
    (h : Single.Precedes (middle nodes r) (middle nodes s)
      ∨ ¬Single.Precedes (middle nodes s) (middle nodes r)
        ∧ [r, s].Sublist (heirs relations parent)) :
  i < j
  := by
  rcases h with hprecedes | ⟨hnot, hearlier⟩
  · by_contra hge
    rcases (Nat.le_of_not_lt hge).eq_or_lt with rfl | hlt
    · obtain rfl := Option.some.inj (hr.symm.trans hs)
      exact (Single.rank_lt_rank_iff.mpr hprecedes).false
    · exact isLeft_iff.mp (isLeft_of_lt hs hr hlt) hprecedes
  · -- The sort is stable.
    have hstable : [r, s].Sublist (siblings nodes relations parent) :=
      List.pair_sublist_mergeSort (isLeft_trans nodes) (isLeft_total nodes) (isLeft_iff.mpr hnot)
        hearlier
    exact lt_of_pair_sublist (nodup_siblings hdistinct nodes parent) hstable hr hs

/-- However the classes are laid out, the slots of the inheritances to one parent are their ranks from left to
right. -/
theorem areRanked (nodes : Catalog Node) :
  AreRanked nodes relations
  := by
  constructor
  · intro r hr
    refine ⟨?_, exists_find?_all nodes hr⟩
    rintro ⟨slot, hslot⟩
    obtain ⟨hrank, -⟩ := getElem?_of_find?_all hdistinct hr hslot
    exact (mem_siblings.mp (List.mem_of_getElem? hrank)).2.1
  · intro id hid
    rw [Option.eq_none_iff_forall_ne_some]
    intro slot hslot
    obtain ⟨-, r, hr, -, rfl, -⟩ := exists_of_find?_all hslot
    exact hid (List.mem_map_of_mem hr)
  · intro parent
    rw [← map_find?_siblings hdistinct]
    exact (siblings_perm nodes relations parent).symm.map _
  · intro i j r s hi hj hr hs htarget hprecedes
    obtain ⟨m, hm⟩ := List.getElem?_of_mem
      (mem_siblings.mpr ⟨List.mem_of_getElem? hi, hr, htarget⟩)
    obtain ⟨n, hn⟩ := List.getElem?_of_mem (mem_siblings.mpr ⟨List.mem_of_getElem? hj, hs, rfl⟩)
    refine ⟨_, _, find?_all_of_getElem? hdistinct hm, find?_all_of_getElem? hdistinct hn, ?_⟩
    apply rank_lt hdistinct hm hn
    apply hprecedes.imp_right
    rintro ⟨hnot, hij⟩
    exact ⟨hnot, pair_sublist_heirs (pair_sublist_of_lt hi hj hij) hr hs htarget⟩

end Distinct

/-- Three inheritances to one parent, two of them of the same heir, among other relations. -/
def family : List ClassRelation :=
  [⟨"r1", "Dog", "Pet", .inheritance, none, some .triangle⟩,
    ⟨"r2", "Cat", "Pet", .inheritance, none, some .triangle⟩,
    ⟨"r3", "Cat", "Toy", .composition, some .diamond, none⟩,
    ⟨"r4", "Dog", "Animal", .inheritance, none, some .triangle⟩,
    ⟨"r5", "Dog", "Pet", .inheritance, none, some .triangle⟩]

/-- The cat stands left of the dog. -/
def familyNodes : Catalog Node :=
  .ofList [("Cat", .labelled "Cat" "Cat" .classBox ⟨0.0, 0.0, 40.0, 20.0⟩),
    ("Dog", .labelled "Dog" "Dog" .classBox ⟨60.0, 0.0, 40.0, 20.0⟩)]

/-- The inheritances of the family are ranked. -/
theorem areRanked_family :
  (family.map ClassRelation.id).Nodup ∧ AreRanked familyNodes family
  := by
  have hdistinct : (family.map ClassRelation.id).Nodup := by decide
  exact ⟨hdistinct, areRanked hdistinct familyNodes⟩

end DiagramLayout.Slot
