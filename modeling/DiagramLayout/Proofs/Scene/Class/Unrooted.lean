import DiagramLayout.Proofs.Scene.Class.Hierarchy
import DiagramLayout.Proofs.Scene.Class.Settling

/-!
# Classes that no root leads to

Classes that no root leads to stand below the hierarchy. The limit that ends the visits on a cycle ends
them for the heirs of the classes on the last level as well, so a class to which a root leads may be put
among them; this happens exactly when such an heir has no level yet, and never without a cycle below
the roots.
-/

namespace DiagramLayout

open Inheritance

namespace Inheritance

variable {graph : List Inheritance} {names : List String} {name root : String} {n : ℕ}

/-- Where no root leads to a cycle, a chain from a root has fewer inheritances than there are classes. -/
theorem Descends.lt_length_of_rooted (hgraph : RelatesOnly graph names)
    (hacyclic : ∀ name, (chainLengths graph names name).Nonempty →
      ∀ n, ¬Descends graph name (n + 1) name)
    (hroot : root ∈ roots graph names) (h : Descends graph root n name) :
  n < names.length
  := by
  classical
  -- All inheritances on the chain have parents to which a root leads, and these form no cycle.
  let below := graph.filter fun i => (chainLengths graph names i.parent).Nonempty
  have hbelow : RelatesOnly below names := fun i hi => hgraph i (List.mem_of_mem_filter hi)
  have hchain : ∀ {n name}, Descends graph root n name → Descends below root n name := by
    intro n name hchain
    induction hchain with
    | refl => exact .refl
    | step hparent hi ih =>
      apply ih.step
      rw [List.mem_filter, decide_eq_true_eq]
      exact ⟨hi, _, root, hroot, hparent⟩
  have hnone : IsAcyclic below := by
    intro name n hcycle
    have hrooted : (chainLengths graph names name).Nonempty := by
      cases hcycle with
      | step _ hi =>
        rw [List.mem_filter, decide_eq_true_eq] at hi
        obtain ⟨hi, m, top, htop, hparent⟩ := hi
        exact ⟨m + 1, top, htop, hparent.step hi⟩
    apply hacyclic name hrooted n (hcycle.mono (List.filter_subset_self _))
  apply (hchain h).lt_length hnone hbelow (h.mem hgraph (mem_roots.mp hroot).1)

end Inheritance

namespace ClassDiagram

variable {d : ClassDiagram} {levels : Catalog ℕ} {name : String} {i : Inheritance} {level : ℕ}

/-- The classes to which a root leads stand above the level that the number of classes gives, and all
other classes stand below them. -/
structure AppendsUnrooted (d : ClassDiagram) (levels : Catalog ℕ) : Prop where
  rooted : ∀ name, d.IsRooted name →
    ∃ level, levels.find? name = some level ∧ level < d.classes.size
  unrooted : ∀ name ∈ d.classes.keys, ¬d.IsRooted name →
    ∀ other, d.IsRooted other → IsAbove levels other name

/-- A root that leads to a class leads to its heirs. -/
theorem IsRooted.heir (hi : i ∈ d.inheritances) (h : d.IsRooted i.parent) :
  d.IsRooted i.heir
  := by
  obtain ⟨n, root, hroot, hchain⟩ := h
  exact ⟨n + 1, root, hroot, hchain.step hi⟩

theorem IsRooted.mem_keys (h : d.IsRooted name) :
  name ∈ d.classes.keys
  := by
  obtain ⟨n, root, hroot, hchain⟩ := h
  apply hchain.mem d.relatesOnly_inheritances (mem_roots.mp hroot).1

section Levels

variable (h : d.levels? = some levels)

include h

/-- Of the classes to which a root leads, those that get a level in the visits are those above the level
that the number of classes gives. -/
theorem mem_settled_iff (hrooted : d.IsRooted name) :
  name ∈ d.settled.keys ↔ ∃ level, levels.find? name = some level ∧ level < d.classes.size
  := by
  constructor
  · intro hname
    obtain ⟨level, hlevel⟩ := Catalog.exists_find?_iff.mpr hname
    rw [← find?_of_mem_settled h hname] at hlevel
    exact ⟨level, hlevel, (lt_of_mem_settled h hname hlevel).2⟩
  · rintro ⟨level, hlevel, hlt⟩
    by_contra hname
    obtain ⟨n, hn⟩ := hrooted
    obtain ⟨i, -, hlast, -⟩ := d.isSettled_settled.exists_last hn hname
    obtain ⟨level', hlevel', hdeepest, -⟩ :=
      exists_level_of_not_mem_settled h (IsRooted.mem_keys ⟨n, hn⟩) hname
    have hle := le_deepest hlast
    rw [hlevel, Option.some.injEq] at hlevel'
    rw [length_keys] at hle
    omega

/-- A class that no root leads to stands below every class that got its level in the visits. -/
theorem isAbove_of_mem_settled {other : String} (hother : other ∈ d.settled.keys)
    (hname : name ∈ d.classes.keys) (hrooted : ¬d.IsRooted name) :
  IsAbove levels other name
  := by
  obtain ⟨level, hlevel⟩ := Catalog.exists_find?_iff.mpr hother
  rw [← find?_of_mem_settled h hother] at hlevel
  obtain ⟨level', hlevel', hlt, -⟩ :=
    exists_level_of_not_mem_settled h hname (mt isRooted_of_mem_settled hrooted)
  exact ⟨level, level', hlevel, hlevel', (lt_of_mem_settled h hother hlevel).1.trans_lt hlt⟩

/-- If the heirs of the classes on the last level have levels, all classes below the roots have. -/
theorem mem_settled_of_isRooted (hlast : ∀ i ∈ d.inheritances, d.IsRooted i.parent →
      levels.find? i.parent = some (d.classes.size - 1) →
      ∃ level, levels.find? i.heir = some level ∧ level < d.classes.size)
    (hrooted : d.IsRooted name) :
  name ∈ d.settled.keys
  := by
  by_contra hname
  obtain ⟨n, hn⟩ := hrooted
  obtain ⟨i, hi, hparent, hheir⟩ := d.isSettled_settled.exists_last hn hname
  have hmem : i.parent ∈ d.settled.keys := Catalog.exists_find?_iff.mp ⟨_, hparent⟩
  have hrooted := isRooted_of_mem_settled hmem
  apply hheir
  apply (mem_settled_iff h (hrooted.heir hi)).mpr
  apply hlast i hi hrooted
  rw [find?_of_mem_settled h hmem, hparent, length_keys]

/-- The unrooted classes stand below all others exactly when every heir of a rooted class on the
last level has a level above the number of classes. -/
theorem appendsUnrooted_iff :
  d.AppendsUnrooted levels ↔ ∀ i ∈ d.inheritances, d.IsRooted i.parent →
    levels.find? i.parent = some (d.classes.size - 1) →
    ∃ level, levels.find? i.heir = some level ∧ level < d.classes.size
  := by
  constructor
  · intro happends i hi hrooted _
    apply happends.rooted i.heir (hrooted.heir hi)
  · intro hlast
    constructor
    case rooted =>
      intro name hrooted
      apply (mem_settled_iff h hrooted).mp
      apply mem_settled_of_isRooted h hlast hrooted
    case unrooted =>
      intro name hname hunrooted other hrooted
      apply isAbove_of_mem_settled h _ hname hunrooted
      apply mem_settled_of_isRooted h hlast hrooted

/-- Without a cycle below the roots, the classes on the last level have no heirs. -/
theorem appendsUnrooted_of_acyclic
    (hacyclic : ∀ name, d.IsRooted name → ∀ n, ¬Descends d.inheritances name (n + 1) name) :
  d.AppendsUnrooted levels
  := by
  rw [appendsUnrooted_iff h]
  intro i hi hrooted hlast
  have hmem : i.parent ∈ d.settled.keys := by
    have hpos := List.length_pos_of_mem hrooted.mem_keys
    rw [length_keys] at hpos
    apply (mem_settled_iff h hrooted).mpr ⟨_, hlast, by omega⟩
  rw [find?_of_mem_settled h hmem] at hlast
  obtain ⟨root, hroot, hchain⟩ := d.isSettled_settled.level i.parent _ hlast
  have hlt := (hchain.step hi).lt_length_of_rooted d.relatesOnly_inheritances hacyclic hroot
  rw [length_keys] at hlt
  omega

/-- Classes that no root leads to stand below the hierarchy. The classes to which a root leads all belong
to it exactly when the heirs of those on the last level do, and so in every diagram without a cycle below
its roots. -/
theorem appendsUnrooted_of_levels? :
  (∀ name ∈ d.classes.keys, ¬d.IsRooted name → ∀ other level, d.IsRooted other →
      levels.find? other = some level → level < d.classes.size → IsAbove levels other name)
    ∧ (d.AppendsUnrooted levels ↔ ∀ i ∈ d.inheritances, d.IsRooted i.parent →
      levels.find? i.parent = some (d.classes.size - 1) →
      ∃ level, levels.find? i.heir = some level ∧ level < d.classes.size)
    ∧ ((∀ name, d.IsRooted name → ∀ n, ¬Descends d.inheritances name (n + 1) name) →
      d.AppendsUnrooted levels)
  := by
  refine ⟨?_, appendsUnrooted_iff h, appendsUnrooted_of_acyclic h⟩
  intro name hname hunrooted other level hrooted hlevel hlt
  apply isAbove_of_mem_settled h _ hname hunrooted
  apply (mem_settled_iff h hrooted).mpr ⟨level, hlevel, hlt⟩

end Levels

/-- A class with two heirs that inherit from each other. -/
def mutualScript : String :=
  "A <|-- B\nB <|-- C\nC <|-- B"

/-- A root leads to the two heirs that inherit from each other, so they stand above the level that
the number of classes gives. -/
theorem appendsUnrooted_mutualScript :
  let d := (Reading.ofText mutualScript).model.classes
  ∃ levels, d.levels? = some levels ∧ d.AppendsUnrooted levels
  := by
  intro d
  have hlevels : d.levelOf? "A" = some 0 ∧ d.levelOf? "B" = some 1 ∧ d.levelOf? "C" = some 2 := by
    decide +kernel
  obtain ⟨levels, hsome⟩ := Option.isSome_iff_exists.mp (show d.levels?.isSome = true by
    decide +kernel)
  simp only [levelOf?, hsome, Option.bind_some] at hlevels
  obtain ⟨hA, hB, hC⟩ := hlevels
  refine ⟨levels, hsome, (appendsUnrooted_of_levels? hsome).2.1.mpr ?_⟩
  have hgraph : d.inheritances = [⟨"B", "A"⟩, ⟨"C", "B"⟩, ⟨"B", "C"⟩] := by decide +kernel
  have hsize : d.classes.size = 3 := by decide +kernel
  rw [hgraph, hsize]
  intro i hi _ hlast
  rw [List.mem_cons, List.mem_cons, List.mem_singleton] at hi
  rcases hi with rfl | rfl | rfl
  · rw [hA] at hlast
    contradiction
  · rw [hB] at hlast
    contradiction
  · exact ⟨1, hB, by norm_num⟩

/-- A class that inherits from itself, on the way from a root to `E`, and a class that no root leads
to. -/
def loopedScript : String :=
  "U <|-- U\nA <|-- B\nC <|-- D\nB <|-- B\nB <|-- C\nD <|-- E"

/-- The loop puts `D` on the last level before it is visited, so that its heir `E` gets no level in the
visits. -/
theorem not_appendsUnrooted_loopedScript :
  ¬∀ (d : ClassDiagram) (levels : Catalog ℕ), d.levels? = some levels → d.AppendsUnrooted levels
  := by
  intro h
  let d := (Reading.ofText loopedScript).model.classes
  have hlevel : d.levelOf? "E" = some 7 := by decide +kernel
  obtain ⟨levels, hlevels, hE⟩ := Option.bind_eq_some_iff.mp hlevel
  have hrooted : d.IsRooted "E" := by
    have hgraph : d.inheritances
        = [⟨"U", "U"⟩, ⟨"B", "A"⟩, ⟨"D", "C"⟩, ⟨"B", "B"⟩, ⟨"C", "B"⟩, ⟨"E", "D"⟩] := by
      decide +kernel
    have hB : Descends d.inheritances "A" 1 "B" := Descends.refl.step (by simp [hgraph])
    have hC : Descends d.inheritances "A" 2 "C" := hB.step (by simp [hgraph])
    have hD : Descends d.inheritances "A" 3 "D" := hC.step (by simp [hgraph])
    exact ⟨4, "A", by decide +kernel, hD.step (by simp [hgraph])⟩
  obtain ⟨level, hlevel, hlt⟩ := (h d levels hlevels).rooted "E" hrooted
  have hsize : d.classes.size = 6 := by decide +kernel
  rw [hE, Option.some.injEq] at hlevel
  omega

end ClassDiagram

end DiagramLayout
