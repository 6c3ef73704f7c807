import DiagramLayout.Proofs.Catalog
import DiagramLayout.Scene.Class.Hierarchy
import Mathlib.Data.List.Perm.Subperm

/-!
# Ancestry in the inheritance hierarchy

A class descends from an ancestor over a chain of inheritances. Where inheritances form no cycle, the
classes on a chain are distinct, so that no chain has as many inheritances as there are classes, and
every class descends from one without parents.
-/

namespace DiagramLayout

namespace Inheritance

variable {graph : List Inheritance} {names : List String} {name ancestor parent heir : String}
  {m n : ℕ}

/-- The parents of a class are those it inherits from. -/
theorem mem_parentsOf :
  parent ∈ parentsOf graph name ↔ ⟨name, parent⟩ ∈ graph
  := by
  simp only [parentsOf, List.mem_map, List.mem_filter, decide_eq_true_eq]
  constructor
  · rintro ⟨i, ⟨hi, rfl⟩, rfl⟩
    exact hi
  · intro h
    exact ⟨⟨name, parent⟩, ⟨h, rfl⟩, rfl⟩

/-- The heirs of a class are those that inherit from it. -/
theorem mem_heirsOf :
  heir ∈ heirsOf graph name ↔ ⟨heir, name⟩ ∈ graph
  := by
  simp only [heirsOf, List.mem_map, List.mem_filter, decide_eq_true_eq]
  constructor
  · rintro ⟨i, ⟨hi, rfl⟩, rfl⟩
    exact hi
  · intro h
    exact ⟨⟨heir, name⟩, ⟨h, rfl⟩, rfl⟩

/-- The roots are the classes without parents. -/
theorem mem_roots :
  name ∈ roots graph names ↔ name ∈ names ∧ ∀ parent, ⟨name, parent⟩ ∉ graph
  := by
  simp only [roots, List.mem_filter, List.isEmpty_iff, List.eq_nil_iff_forall_not_mem,
    mem_parentsOf]

/-- The inheritances relate names of a list only. -/
def RelatesOnly (graph : List Inheritance) (names : List String) : Prop :=
  ∀ i ∈ graph, i.heir ∈ names ∧ i.parent ∈ names

/-! ### Chains -/

/-- A chain of `n` inheritances leads from an ancestor down to a class. -/
inductive Descends (graph : List Inheritance) (ancestor : String) : ℕ → String → Prop
  | refl : Descends graph ancestor 0 ancestor
  | step {n : ℕ} {parent heir : String} : Descends graph ancestor n parent →
      ⟨heir, parent⟩ ∈ graph → Descends graph ancestor (n + 1) heir

/-- No chain of inheritances leads from a class back to it. -/
def IsAcyclic (graph : List Inheritance) : Prop :=
  ∀ name n, ¬Descends graph name (n + 1) name

/-- Inheritances that all lead down by a measure form no cycle. -/
theorem isAcyclic_of_lt (measure : String → ℕ) (h : ∀ i ∈ graph, measure i.parent < measure i.heir) :
  IsAcyclic graph
  := by
  have hle : ∀ {ancestor n name}, Descends graph ancestor n name →
      measure ancestor + n ≤ measure name := by
    intro ancestor n name hchain
    induction hchain with
    | refl => apply Nat.le_refl
    | step _ hi ih => exact Nat.succ_le_of_lt (Nat.lt_of_le_of_lt ih (h _ hi))
  intro name n hchain
  have hself := hle hchain
  omega

/-- Chains are put together. -/
theorem Descends.trans (h : Descends graph ancestor m parent) (h' : Descends graph parent n name) :
  Descends graph ancestor (m + n) name
  := by
  induction h' with
  | refl => exact h
  | step _ hi ih => exact ih.step hi

theorem Descends.mono {graph' : List Inheritance} (h : graph ⊆ graph')
    (hchain : Descends graph ancestor n name) :
  Descends graph' ancestor n name
  := by
  induction hchain with
  | refl => exact .refl
  | step _ hi ih => exact ih.step (h hi)

theorem Descends.mem (hgraph : RelatesOnly graph names) (h : Descends graph ancestor n name)
    (hancestor : ancestor ∈ names) :
  name ∈ names
  := by
  cases h with
  | refl => exact hancestor
  | step _ hi => exact (hgraph _ hi).1

/-- The classes above the last one on a chain are distinct. -/
theorem Descends.exists_path (hacyclic : IsAcyclic graph) (hgraph : RelatesOnly graph names)
    (h : Descends graph ancestor n name) :
  ∃ path : List String, path.length = n ∧ path.Nodup ∧ path ⊆ names
    ∧ ∀ other ∈ path, ∃ k, Descends graph other (k + 1) name
  := by
  induction h with
  | refl => exact ⟨[], rfl, List.nodup_nil, List.nil_subset _, nofun⟩
  | @step n parent heir _ hi ih =>
    obtain ⟨path, hlength, hnodup, hsubset, hpath⟩ := ih
    refine ⟨parent :: path, ?_, ?_, ?_, ?_⟩
    · rw [List.length_cons, hlength]
    · apply hnodup.cons
      intro hmem
      obtain ⟨k, hk⟩ := hpath parent hmem
      apply hacyclic parent k hk
    · apply List.cons_subset.mpr ⟨(hgraph _ hi).2, hsubset⟩
    · intro other hother
      rcases List.mem_cons.mp hother with rfl | hother
      · exact ⟨0, Descends.refl.step hi⟩
      · obtain ⟨k, hk⟩ := hpath other hother
        exact ⟨k + 1, hk.step hi⟩

/-- A chain has fewer inheritances than there are classes. -/
theorem Descends.lt_length (hacyclic : IsAcyclic graph) (hgraph : RelatesOnly graph names)
    (h : Descends graph ancestor n name) (hname : name ∈ names) :
  n < names.length
  := by
  obtain ⟨path, hlength, hnodup, hsubset, hpath⟩ := h.exists_path hacyclic hgraph
  have hfresh : name ∉ path := by
    intro hmem
    obtain ⟨k, hk⟩ := hpath name hmem
    apply hacyclic name k hk
  have hle := (List.subperm_of_subset (hnodup.cons hfresh)
    (List.cons_subset.mpr ⟨hname, hsubset⟩)).length_le
  rw [List.length_cons, hlength] at hle
  exact hle

/-- Every class descends from one without parents: the way up ends, as chains are bounded. -/
theorem exists_root (hacyclic : IsAcyclic graph) (hgraph : RelatesOnly graph names)
    (hname : name ∈ names) :
  ∃ root ∈ roots graph names, ∃ n, Descends graph root n name
  := by
  by_contra! hnone
  have hup : ∀ n, ∃ ancestor ∈ names, Descends graph ancestor n name := by
    intro n
    induction n with
    | zero => exact ⟨name, hname, .refl⟩
    | succ n ih =>
      obtain ⟨ancestor, hancestor, hchain⟩ := ih
      have hroot : ancestor ∉ roots graph names := fun h => hnone ancestor h n hchain
      rw [mem_roots, not_and, not_forall] at hroot
      obtain ⟨parent, hparent⟩ := hroot hancestor
      rw [not_not] at hparent
      refine ⟨parent, (hgraph _ hparent).2, ?_⟩
      rw [Nat.add_comm]
      apply (Descends.refl.step hparent).trans hchain
  obtain ⟨ancestor, -, hchain⟩ := hup names.length
  apply Nat.lt_irrefl _ (hchain.lt_length hacyclic hgraph hname)

/-- The lengths of the chains from the roots down to a class. -/
def chainLengths (graph : List Inheritance) (names : List String) (name : String) : Set ℕ :=
  {n | ∃ root ∈ roots graph names, Descends graph root n name}

end Inheritance

namespace ClassDiagram

variable {d : ClassDiagram} {i : Inheritance}

/-- The inheritances are the relations of their kind between classes. -/
theorem mem_inheritances :
  i ∈ d.inheritances ↔ (∃ r ∈ d.relations, r.kind = .inheritance ∧ r.source = i.heir
      ∧ r.target = i.parent) ∧ i.heir ∈ d.classes.keys ∧ i.parent ∈ d.classes.keys
  := by
  simp only [inheritances, List.mem_filterMap, inheritance?, Bool.and_eq_true, decide_eq_true_eq,
    Catalog.contains_iff, Option.ite_none_right_eq_some, Option.some.injEq]
  constructor
  · rintro ⟨r, hr, ⟨⟨hkind, hsource⟩, htarget⟩, rfl⟩
    exact ⟨⟨r, hr, hkind, rfl, rfl⟩, hsource, htarget⟩
  · rintro ⟨⟨r, hr, hkind, hsource, htarget⟩, hheir, hparent⟩
    exact ⟨r, hr, ⟨⟨hkind, hsource ▸ hheir⟩, htarget ▸ hparent⟩, by rw [hsource, htarget]⟩

/-- The inheritances of a diagram relate its classes only. -/
theorem relatesOnly_inheritances (d : ClassDiagram) :
  Inheritance.RelatesOnly d.inheritances d.classes.keys
  := fun _ hi => (mem_inheritances.mp hi).2

end ClassDiagram

end DiagramLayout
