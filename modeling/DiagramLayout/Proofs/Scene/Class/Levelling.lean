import DiagramLayout.Proofs.Scene.Class.Ancestry
import Mathlib.Algebra.Order.BigOperators.Group.List
import Mathlib.Algebra.Order.Ring.Nat
import Mathlib.Order.Bounds.Defs

/-!
# Levels are the lengths of longest chains

While levels are found, every level is the length of a chain from a root, and an heir stands below a
parent that is not in the queue, as far as the limit allows. A visit keeps this, and it makes the
queue together with the room that is left below the classes shorter, so that the queue is empty
before the visits run out. Without cycles the limit is never reached, and then the level of a class
is the length of the longest chain from a root down to it.
-/

namespace DiagramLayout

open Inheritance

namespace Levelling

variable {graph : List Inheritance} {names heirs rest : List String} {limit level n : ℕ}
  {levels : Catalog ℕ} {s : Levelling} {i : Inheritance} {name heir : String}

/-! ### Lowering a class -/

/-- A class that is lowered to a level stands there or stays below it. -/
theorem find?_lower (level : ℕ) (s : Levelling) (heir name : String) :
  (lower level s heir).levels.find? name
    = if name = heir then some ((s.levels.find? heir).elim level (max level))
      else s.levels.find? name
  := by
  rw [lower]
  split_ifs with hless heq heq
  · rw [Catalog.find?_put, if_pos heq]
    cases hfind : s.levels.find? heir with
    | none => rfl
    | some old =>
      rw [hfind, Option.all_some, decide_eq_true_eq] at hless
      rw [Option.elim_some, max_eq_left hless.le]
  · rw [Catalog.find?_put, if_neg heq]
  · subst heq
    cases hfind : s.levels.find? name with
    | none =>
      rw [hfind] at hless
      contradiction
    | some old =>
      rw [hfind, Option.all_some, decide_eq_true_eq, not_lt] at hless
      rw [Option.elim_some, max_eq_right hless]
  · rfl

/-- Lowering an heir raises no class. -/
theorem exists_find?_lower {old : ℕ} (h : s.levels.find? name = some old) (level : ℕ)
    (heir : String) :
  ∃ new, (lower level s heir).levels.find? name = some new ∧ old ≤ new
  := by
  rw [find?_lower]
  split_ifs with heq
  · rw [← heq, h]
    exact ⟨_, rfl, le_max_right level old⟩
  · exact ⟨old, h, le_rfl⟩

/-- Lowering an heir takes nothing out of the queue. -/
theorem mem_queue_lower (h : name ∈ s.queue) (level : ℕ) (heir : String) :
  name ∈ (lower level s heir).queue
  := by
  rw [lower]
  split_ifs
  · apply List.mem_append_left _ h
  · exact h

/-- A class that is moved is put into the queue. -/
theorem mem_queue_of_find?_ne
    (h : (lower level s heir).levels.find? name ≠ s.levels.find? name) :
  name ∈ (lower level s heir).queue
  := by
  rw [lower] at h ⊢
  split_ifs at h ⊢
  · rw [Catalog.find?_put] at h
    rw [List.mem_append, List.mem_singleton]
    right
    by_contra hne
    apply h (if_neg hne)
  · contradiction

/-- What lowering one heir keeps, lowering some heirs keeps. -/
theorem foldl_lower_induction {P : Levelling → Prop} (hs : P s)
    (hlower : ∀ t, ∀ heir ∈ heirs, P t → P (lower level t heir)) :
  P (heirs.foldl (lower level) s)
  := List.foldlRecOn heirs (lower level) hs fun t ht heir hheir => hlower t heir hheir ht

/-! ### Levels are lengths of chains -/

/-- Every level is the length of a chain from a root, and all roots and all classes of the queue have
levels. -/
structure IsReached (graph : List Inheritance) (names : List String) (s : Levelling) : Prop where
  level : ∀ name level, s.levels.find? name = some level → level ∈ chainLengths graph names name
  root : ∀ name ∈ roots graph names, name ∈ s.levels.keys
  queued : ∀ name ∈ s.queue, name ∈ s.levels.keys

namespace IsReached

/-- Only classes of the diagram have levels. -/
theorem mem_names (h : IsReached graph names s) (hgraph : RelatesOnly graph names)
    (hname : name ∈ s.levels.keys) :
  name ∈ names
  := by
  obtain ⟨level, hlevel⟩ := Catalog.exists_find?_iff.mpr hname
  obtain ⟨root, hroot, hchain⟩ := h.level name level hlevel
  apply hchain.mem hgraph (mem_roots.mp hroot).1

/-- Lowering an heir to the length of a chain keeps the levels lengths of chains. -/
theorem lower (h : IsReached graph names s) (hlevel : level ∈ chainLengths graph names heir) :
  IsReached graph names (lower level s heir)
  := by
  rw [Levelling.lower]
  split_ifs
  · constructor
    case level =>
      intro name new hfind
      rw [Catalog.find?_put] at hfind
      split_ifs at hfind with heq
      · rw [heq, ← Option.some.inj hfind]
        exact hlevel
      · apply h.level name new hfind
    case root =>
      intro name hname
      apply Catalog.mem_keys_put.mpr
      left
      apply h.root name hname
    case queued =>
      intro name hname
      apply Catalog.mem_keys_put.mpr
      apply (List.mem_append.mp hname).imp (h.queued name)
      apply List.mem_singleton.mp
  · exact h

theorem tail (h : IsReached graph names ⟨levels, name :: rest⟩) :
  IsReached graph names ⟨levels, rest⟩
  := ⟨h.level, h.root, fun other hother => h.queued other (List.mem_cons_of_mem name hother)⟩

/-- The first class of the queue has a level. -/
theorem exists_level (h : IsReached graph names ⟨levels, name :: rest⟩) :
  ∃ level, levels.find? name = some level
  := Catalog.exists_find?_iff.mpr (h.queued name List.mem_cons_self)

/-- A visit keeps the levels lengths of chains. -/
theorem visit (h : IsReached graph names ⟨levels, name :: rest⟩) :
  IsReached graph names (visit graph limit ⟨levels, rest⟩ name)
  := by
  obtain ⟨level, hlevel⟩ := h.exists_level
  rw [Levelling.visit]
  simp only [hlevel, Option.getD_some]
  split_ifs
  · apply h.tail
  · apply foldl_lower_induction h.tail
    intro t heir hheir ht
    obtain ⟨root, hroot, hchain⟩ := h.level name level hlevel
    apply ht.lower ⟨root, hroot, hchain.step (mem_heirsOf.mp hheir)⟩

end IsReached

/-! ### Heirs stand below their parents -/

/-- The heir stands below the parent, unless the parent is in the queue or too near to the limit. -/
def Respects (limit : ℕ) (s : Levelling) (i : Inheritance) : Prop :=
  ∀ level, s.levels.find? i.parent = some level →
    i.parent ∈ s.queue ∨ limit ≤ level + 1 ∨ ∃ below, s.levels.find? i.heir = some below
      ∧ level < below

/-- Lowering an heir leaves no heir too high. -/
theorem Respects.lower (h : Respects limit s i) (level : ℕ) (heir : String) :
  Respects limit (lower level s heir) i
  := by
  intro above habove
  by_cases hmoved : (Levelling.lower level s heir).levels.find? i.parent = s.levels.find? i.parent
  · rw [hmoved] at habove
    rcases h above habove with hqueued | hlimit | ⟨below, hbelow, hlt⟩
    · left
      apply mem_queue_lower hqueued
    · right
      left
      exact hlimit
    · right
      right
      obtain ⟨new, hnew, hle⟩ := exists_find?_lower hbelow level heir
      exact ⟨new, hnew, hlt.trans_le hle⟩
  · left
    apply mem_queue_of_find?_ne hmoved

/-- Lowering all heirs of a class puts them below it, unless this moves the class itself. -/
theorem respects_foldl_lower (hname : s.levels.find? name = some level ∨ name ∈ s.queue)
    (hheir : heir ∈ heirs) :
  Respects limit (heirs.foldl (lower (level + 1)) s) ⟨heir, name⟩
  := by
  induction heirs generalizing s with
  | nil => contradiction
  | cons first rest ih =>
    rw [List.foldl_cons]
    -- Unless the class itself is lowered, and so waits for a visit, its level stays.
    have hname' : (lower (level + 1) s first).levels.find? name = some level
        ∨ name ∈ (lower (level + 1) s first).queue := by
      by_cases hmoved : (lower (level + 1) s first).levels.find? name = s.levels.find? name
      · rw [hmoved]
        apply hname.imp_right fun h => mem_queue_lower h _ _
      · right
        apply mem_queue_of_find?_ne hmoved
    rcases List.mem_cons.mp hheir with rfl | hheir
    · have hfirst : Respects limit (lower (level + 1) s heir) ⟨heir, name⟩ := by
        intro above habove
        apply hname'.symm.imp_right
        intro hlevel
        right
        rw [habove, Option.some.injEq] at hlevel
        rw [find?_lower, if_pos rfl, hlevel]
        refine ⟨_, rfl, ?_⟩
        cases s.levels.find? heir with
        | none => apply Nat.lt_succ_self
        | some old => apply le_max_left (level + 1) old
      apply foldl_lower_induction (P := fun t => Respects limit t ⟨heir, name⟩) hfirst
      intro t other _ ht
      apply ht.lower
    · apply ih hname' hheir

/-- Every level is the length of a chain, and heirs stand below their parents. -/
structure IsSound (graph : List Inheritance) (names : List String) (limit : ℕ) (s : Levelling) :
    Prop where
  reached : IsReached graph names s
  respected : ∀ i ∈ graph, Respects limit s i

/-- A visit of the first class in the queue keeps levels sound. -/
theorem IsSound.visit (h : IsSound graph names limit ⟨levels, name :: rest⟩) :
  IsSound graph names limit (visit graph limit ⟨levels, rest⟩ name)
  := by
  use h.reached.visit
  obtain ⟨level, hlevel⟩ := h.reached.exists_level
  -- Only the heirs of the class are put below it; of the others nothing changes.
  have hothers : ∀ i ∈ graph, i.parent ≠ name → Respects limit ⟨levels, rest⟩ i := by
    intro i hi hne above habove
    apply (h.respected i hi above habove).imp_left
    intro hmem
    apply (List.mem_cons.mp hmem).resolve_left hne
  rw [Levelling.visit]
  simp only [hlevel, Option.getD_some]
  rintro ⟨heir, parent⟩ hi
  split_ifs with hlimit
  · by_cases heq : parent = name
    · subst heq
      intro above habove
      right
      left
      rw [show levels.find? parent = some above from habove, Option.some.injEq] at hlevel
      rw [hlevel]
      exact hlimit
    · apply hothers _ hi heq
  · by_cases heq : parent = name
    · subst heq
      apply respects_foldl_lower (Or.inl hlevel) (mem_heirsOf.mpr hi)
    · apply foldl_lower_induction (P := fun t => Respects limit t ⟨heir, parent⟩)
        (hothers _ hi heq)
      intro t other _ ht
      apply ht.lower

theorem settle_cons (graph : List Inheritance) (limit steps : ℕ) (levels : Catalog ℕ)
    (name : String) (rest : List String) :
  settle graph limit (steps + 1) ⟨levels, name :: rest⟩
    = settle graph limit steps (visit graph limit ⟨levels, rest⟩ name)
  := rfl

/-- What every visit of the first class in the queue keeps is kept by any number of visits. -/
theorem settle_induction {P : Levelling → Prop} (hs : P s)
    (hvisit : ∀ levels name rest, P ⟨levels, name :: rest⟩ →
      P (visit graph limit ⟨levels, rest⟩ name)) (steps : ℕ) :
  P (settle graph limit steps s)
  := by
  induction steps generalizing s with
  | zero => exact hs
  | succ steps ih =>
    obtain ⟨levels, queue⟩ := s
    cases queue with
    | nil => exact hs
    | cons name rest =>
      rw [settle_cons]
      apply ih (hvisit levels name rest hs)

/-- Levels are sound after any number of visits. -/
theorem IsSound.settle (h : IsSound graph names limit s) (steps : ℕ) :
  IsSound graph names limit (settle graph limit steps s)
  := settle_induction h (fun _ _ _ => IsSound.visit) steps

/-- The levelling begins with sound levels. -/
theorem isSound_initial (graph : List Inheritance) (names : List String) (limit : ℕ) :
  IsSound graph names limit (initial (roots graph names))
  := by
  have hkeys : ∀ name, name ∈ (initial (roots graph names)).levels.keys
      ↔ name ∈ roots graph names := by
    intro name
    rw [initial, Catalog.mem_keys_ofList, List.map_map]
    simp
  constructor
  case reached =>
    constructor
    case level =>
      intro name level hfind
      refine Catalog.forall_entries_ofList (P := fun name level =>
        level ∈ chainLengths graph names name) ?_ (name, level)
        (Catalog.find?_eq_some_iff.mp hfind)
      intro e he
      obtain ⟨root, hroot, rfl⟩ := List.mem_map.mp he
      exact ⟨root, hroot, .refl⟩
    case root => exact fun name => (hkeys name).mpr
    case queued => exact fun name => (hkeys name).mpr
  case respected =>
    intro i _ level hfind
    left
    exact (hkeys _).mp (Catalog.exists_find?_iff.mp ⟨level, hfind⟩)

/-! ### The queue becomes empty -/

/-- How much lower a class may still be put. -/
def room (limit : ℕ) : Option ℕ → ℕ
  | none => limit
  | some level => limit - 1 - level

/-- The length of the queue and all room that is left below the classes. -/
def potential (names : List String) (limit : ℕ) (s : Levelling) : ℕ :=
  s.queue.length + (names.map fun name => room limit (s.levels.find? name)).sum

/-- A class that is put into the queue takes at least one level of room. -/
theorem potential_lower (hheir : heir ∈ names) (hlevel : level < limit) :
  potential names limit (lower level s heir) ≤ potential names limit s
  := by
  rw [lower]
  split_ifs with hless
  -- The class is put lower, so it has less room than before.
  · have hroom : room limit (some level) < room limit (s.levels.find? heir) := by
      cases hfind : s.levels.find? heir with
      | none =>
        rw [room, room]
        omega
      | some old =>
        rw [hfind, Option.all_some, decide_eq_true_eq] at hless
        rw [room, room]
        omega
    have hsum : (names.map fun name => room limit ((s.levels.put heir level).find? name)).sum
        < (names.map fun name => room limit (s.levels.find? name)).sum := by
      apply List.sum_lt_sum
      · intro name _
        rw [Catalog.find?_put]
        split_ifs with heq
        · rw [heq]
          exact hroom.le
        · exact le_rfl
      · use heir, hheir
        rw [Catalog.find?_put, if_pos rfl]
        exact hroom
    rw [potential, potential, List.length_append, List.length_singleton]
    dsimp only
    omega
  · exact le_rfl

theorem potential_cons (names : List String) (limit : ℕ) (levels : Catalog ℕ) (name : String)
    (rest : List String) :
  potential names limit ⟨levels, name :: rest⟩ = potential names limit ⟨levels, rest⟩ + 1
  := Nat.add_right_comm rest.length 1 _

/-- A visit does not add to the queue and the room together: a class that is queued has been
lowered. -/
theorem potential_visit (hgraph : RelatesOnly graph names) (s : Levelling) (name : String) :
  potential names limit (visit graph limit s name) ≤ potential names limit s
  := by
  rw [visit]
  split_ifs with hlimit
  · exact le_rfl
  · apply foldl_lower_induction (P := fun t => potential names limit t ≤ potential names limit s)
      le_rfl
    intro t heir hheir ht
    apply (potential_lower (hgraph _ (mem_heirsOf.mp hheir)).1 (not_le.mp hlimit)).trans ht

/-- The queue is empty in the end, when there are enough visits. -/
theorem queue_settle (hgraph : RelatesOnly graph names) {steps : ℕ}
    (h : potential names limit s ≤ steps) :
  (settle graph limit steps s).queue = []
  := by
  induction steps generalizing s with
  | zero =>
    rw [potential] at h
    apply List.eq_nil_of_length_eq_zero
    rw [settle]
    omega
  | succ steps ih =>
    obtain ⟨levels, queue⟩ := s
    cases queue with
    | nil => rfl
    | cons name rest =>
      rw [settle_cons]
      rw [potential_cons] at h
      apply ih
      apply (potential_visit hgraph _ name).trans
      apply Nat.le_of_succ_le_succ h

/-- The visits that are allowed are enough for any inheritances, with or without cycles. -/
theorem queue_settle_initial (hgraph : RelatesOnly graph names) :
  (settle graph names.length (names.length * (names.length + 1))
    (initial (roots graph names))).queue = []
  := by
  apply queue_settle hgraph
  have hroots : (roots graph names).length ≤ names.length := List.length_filter_le _ _
  have hroom : ∀ r ∈ names.map fun name => room names.length
      ((initial (roots graph names)).levels.find? name), r ≤ names.length := by
    intro r hr
    obtain ⟨name, -, rfl⟩ := List.mem_map.mp hr
    cases (initial (roots graph names)).levels.find? name with
    | none => exact le_rfl
    | some level =>
      rw [room]
      omega
  have hsum := List.sum_le_card_nsmul _ _ hroom
  rw [List.length_map] at hsum
  rw [potential, Nat.mul_succ, Nat.add_comm]
  apply Nat.add_le_add hsum hroots

/-! ### The levels of a hierarchy without cycles -/

/-- When the queue is empty, a class stands at least as low as each of its chains is long. -/
theorem IsSound.exists_level (h : IsSound graph names names.length s) (hqueue : s.queue = [])
    (hacyclic : IsAcyclic graph) (hgraph : RelatesOnly graph names)
    (hn : n ∈ chainLengths graph names name) :
  ∃ level, s.levels.find? name = some level ∧ n ≤ level
  := by
  obtain ⟨root, hroot, hchain⟩ := hn
  induction hchain with
  | refl =>
    obtain ⟨level, hlevel⟩ := Catalog.exists_find?_iff.mpr (h.reached.root root hroot)
    exact ⟨level, hlevel, Nat.zero_le level⟩
  | @step n parent heir _ hi ih =>
    obtain ⟨above, habove, hle⟩ := ih
    rcases h.respected _ hi above habove with hqueued | hlimit | ⟨below, hbelow, hlt⟩
    · rw [hqueue] at hqueued
      contradiction
    · -- A parent near the limit would end a chain that is too long to be one.
      obtain ⟨first, -, hfirst⟩ := h.reached.level _ above habove
      apply absurd hlimit
      apply Nat.not_le.mpr
      apply (hfirst.step hi).lt_length hacyclic hgraph (hgraph _ hi).1
    · exact ⟨below, hbelow, Nat.succ_le_of_lt (hle.trans_lt hlt)⟩

/-- When the queue is empty, the level of a class is the length of its longest chain. -/
theorem IsSound.find?_iff (h : IsSound graph names names.length s) (hqueue : s.queue = [])
    (hacyclic : IsAcyclic graph) (hgraph : RelatesOnly graph names) :
  s.levels.find? name = some level ↔ IsGreatest (chainLengths graph names name) level
  := by
  constructor
  · intro hfind
    use h.reached.level name level hfind
    intro n hn
    obtain ⟨level', hlevel', hle⟩ := h.exists_level hqueue hacyclic hgraph hn
    rw [hfind, Option.some.injEq] at hlevel'
    rw [hlevel']
    exact hle
  · intro hgreatest
    obtain ⟨level', hlevel', hle⟩ := h.exists_level hqueue hacyclic hgraph hgreatest.1
    rw [hlevel', le_antisymm hle (hgreatest.2 (h.reached.level name level' hlevel'))]

/-! ### Classes that no root leads to -/

theorem mem_keys_append :
  name ∈ (append levels names).keys ↔ name ∈ levels.keys ∨ name ∈ names
  := by
  induction names generalizing levels with
  | nil => simp [append]
  | cons first rest ih =>
    rw [append, List.mem_cons]
    split_ifs with hcontains
    · rw [ih, or_left_comm, iff_or_self]
      rintro rfl
      left
      exact Catalog.contains_iff.mp hcontains
    · rw [ih, Catalog.mem_keys_put, or_assoc]

/-- Nothing is appended when all classes have levels. -/
theorem append_eq_self (h : ∀ name ∈ names, name ∈ levels.keys) :
  append levels names = levels
  := by
  induction names with
  | nil => rfl
  | cons first rest ih =>
    obtain ⟨hfirst, hrest⟩ := List.forall_mem_cons.mp h
    rw [append, if_pos (Catalog.contains_iff.mpr hfirst), ih hrest]

end Levelling

namespace ClassDiagram

variable {d : ClassDiagram} {levels : Catalog ℕ} {name : String}

/-- The lengths of the chains of inheritances from classes without parents down to a class. -/
def chainLengths (d : ClassDiagram) (name : String) : Set ℕ :=
  Inheritance.chainLengths d.inheritances d.classes.keys name

theorem length_keys (d : ClassDiagram) :
  d.classes.keys.length = d.classes.size
  := List.length_map _

/-- All classes of a hierarchy have a level, and nothing else has one. -/
theorem mem_keys_levels (h : d.levels? = some levels) :
  name ∈ levels.keys ↔ name ∈ d.classes.keys
  := by
  rw [levels?] at h
  dsimp only at h
  split_ifs at h
  rw [← Option.some.inj h, Levelling.mem_keys_append, or_iff_right_of_imp]
  intro hname
  have hsound := Levelling.isSound_initial d.inheritances d.classes.keys d.classes.size
  apply (hsound.settle _).reached.mem_names d.relatesOnly_inheritances hname

/-- Without cycles, the level of a class is the length of the longest chain down to it. -/
theorem exists_levels (hacyclic : IsAcyclic d.inheritances) (hclasses : d.classes.keys ≠ []) :
  ∃ levels, d.levels? = some levels
    ∧ ∀ name level, levels.find? name = some level ↔ IsGreatest (d.chainLengths name) level
  := by
  have hgraph := d.relatesOnly_inheritances
  have hroots : (roots d.inheritances d.classes.keys).isEmpty = false := by
    obtain ⟨name, hname⟩ := List.exists_mem_of_ne_nil _ hclasses
    obtain ⟨root, hroot, -⟩ := exists_root hacyclic hgraph hname
    rw [List.isEmpty_eq_false_iff]
    apply List.ne_nil_of_mem hroot
  have hqueue := Levelling.queue_settle_initial hgraph
  have hsound := (Levelling.isSound_initial d.inheritances d.classes.keys
    d.classes.keys.length).settle (d.classes.keys.length * (d.classes.keys.length + 1))
  rw [levels?, hroots, ← length_keys]
  refine ⟨_, rfl, ?_⟩
  intro name level
  rw [Levelling.append_eq_self]
  · apply hsound.find?_iff hqueue hacyclic hgraph
  · intro name hname
    obtain ⟨root, hroot, n, hchain⟩ := exists_root hacyclic hgraph hname
    obtain ⟨level, hlevel, -⟩ := hsound.exists_level hqueue hacyclic hgraph ⟨root, hroot, hchain⟩
    apply Catalog.exists_find?_iff.mp ⟨level, hlevel⟩

end ClassDiagram

end DiagramLayout
