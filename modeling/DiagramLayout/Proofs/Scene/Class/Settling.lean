import DiagramLayout.Proofs.Scene.Class.Rows
import Mathlib.Data.List.Pairwise

/-!
# Settled levels

Whatever the inheritances are, with cycles or without, the visits of the queue come to an end, and no
class is visited that has no level. Then the classes with levels are some of those that a root leads
to; they stand above the limit, and the roots alone stand on level 0. All other classes are put below
them in the order of the diagram, each on a level of its own.
-/

namespace DiagramLayout

open Inheritance

namespace Levelling

variable {graph : List Inheritance} {names rest : List String} {limit level steps n : ℕ}
  {levels settled settled' : Catalog ℕ} {s : Levelling} {name : String}

/-! ### The visits come to an end -/

/-- The visits of the queue end with these levels. A class is visited from the level that it then has:
it is left as it is when the next level reaches the limit, and otherwise its heirs are lowered. -/
inductive Settles (graph : List Inheritance) (limit : ℕ) : Levelling → Catalog ℕ → Prop
  | done {levels : Catalog ℕ} : Settles graph limit ⟨levels, []⟩ levels
  | leave {levels settled : Catalog ℕ} {name : String} {rest : List String} {level : ℕ} :
      levels.find? name = some level → limit ≤ level + 1 →
      Settles graph limit ⟨levels, rest⟩ settled → Settles graph limit ⟨levels, name :: rest⟩ settled
  | lower {levels settled : Catalog ℕ} {name : String} {rest : List String} {level : ℕ} :
      levels.find? name = some level → level + 1 < limit →
      Settles graph limit ((heirsOf graph name).foldl (lower (level + 1)) ⟨levels, rest⟩) settled →
      Settles graph limit ⟨levels, name :: rest⟩ settled

/-- There is one way for the visits to go. -/
theorem Settles.unique (h : Settles graph limit s settled) (h' : Settles graph limit s settled') :
  settled = settled'
  := by
  induction h with
  | done =>
    cases h'
    rfl
  | leave hlevel hlimit _ ih =>
    cases h' with
    | leave _ _ h' => apply ih h'
    | lower hlevel' hlimit' =>
      rw [hlevel, Option.some.injEq] at hlevel'
      omega
  | lower hlevel hlimit _ ih =>
    cases h' with
    | leave hlevel' hlimit' =>
      rw [hlevel, Option.some.injEq] at hlevel'
      omega
    | lower hlevel' _ h' =>
      rw [hlevel, Option.some.injEq] at hlevel'
      rw [← hlevel'] at h'
      apply ih h'

/-- When the queue is empty in the end, all visits have been made. -/
theorem settles_settle (hs : IsReached graph names s)
    (hqueue : (settle graph limit steps s).queue = []) :
  Settles graph limit s (settle graph limit steps s).levels
  := by
  induction steps generalizing s with
  | zero =>
    obtain ⟨levels, queue⟩ := s
    obtain rfl : queue = [] := hqueue
    exact .done
  | succ steps ih =>
    obtain ⟨levels, queue⟩ := s
    cases queue with
    | nil => exact .done
    | cons name rest =>
      obtain ⟨level, hlevel⟩ := hs.exists_level
      rw [settle_cons] at hqueue ⊢
      have hrest := ih hs.visit hqueue
      by_cases hlimit : limit ≤ level + 1
      · apply Settles.leave hlevel hlimit
        convert hrest using 1
        rw [visit, hlevel, Option.getD_some, if_pos hlimit]
      · apply Settles.lower hlevel (not_le.mp hlimit)
        convert hrest using 1
        rw [visit, hlevel, Option.getD_some, if_neg hlimit]

/-! ### Where the visits have come to an end -/

/-- No class stands at the limit or below it. -/
def StaysAbove (limit : ℕ) (levels : Catalog ℕ) : Prop :=
  ∀ name level, levels.find? name = some level → level < limit

/-- A visit puts no class at the limit. -/
theorem StaysAbove.visit (h : StaysAbove limit s.levels) (name : String) :
  StaysAbove limit (visit graph limit s name).levels
  := by
  rw [Levelling.visit]
  split_ifs with hlimit
  · exact h
  · apply foldl_lower_induction (P := fun t => StaysAbove limit t.levels) h
    intro t heir _ ht other level hlevel
    rw [find?_lower] at hlevel
    split_ifs at hlevel with heq
    · rw [Option.some.injEq] at hlevel
      cases hheir : t.levels.find? heir with
      | none =>
        rw [hheir, Option.elim_none] at hlevel
        omega
      | some old =>
        have hold := ht heir old hheir
        rw [hheir, Option.elim_some] at hlevel
        omega
    · apply ht other level hlevel

/-- The deepest level is above the limit. -/
theorem StaysAbove.deepest_lt (h : StaysAbove limit levels) (hlimit : 0 < limit) :
  deepest levels < limit
  := by
  rw [deepest, List.foldl_eq_foldr, Nat.lt_iff_le_pred hlimit]
  apply List.max_le_of_forall_le
  intro level hlevel
  obtain ⟨⟨name, _⟩, hentry, rfl⟩ := List.mem_map.mp hlevel
  apply Nat.le_pred_of_lt (h name _ (Catalog.find?_eq_some_iff.mpr hentry))

theorem staysAbove_initial (graph : List Inheritance) (names : List String) :
  StaysAbove names.length (initial (roots graph names)).levels
  := by
  intro name level hlevel
  refine Catalog.forall_entries_ofList (P := fun _ level => level < names.length) ?_ (name, level)
    (Catalog.find?_eq_some_iff.mp hlevel)
  intro e he
  obtain ⟨root, hroot, rfl⟩ := List.mem_map.mp he
  apply List.length_pos_of_mem (mem_roots.mp hroot).1

/-- The levelling puts no class at the limit. -/
theorem staysAbove_settle (graph : List Inheritance) (names : List String) (steps : ℕ) :
  StaysAbove names.length (settle graph names.length steps (initial (roots graph names))).levels
  := settle_induction (P := fun s => StaysAbove names.length s.levels)
    (staysAbove_initial graph names)
    (fun levels name rest h => StaysAbove.visit (s := ⟨levels, rest⟩) h name) steps

/-- The levels are lengths of chains, the roots have level 0, and the heirs of classes with levels have
levels, as far as the limit allows. -/
structure IsSettled (graph : List Inheritance) (names : List String) (levels : Catalog ℕ) : Prop where
  above : StaysAbove names.length levels
  level : ∀ name level, levels.find? name = some level → level ∈ chainLengths graph names name
  root : ∀ name ∈ roots graph names, name ∈ levels.keys
  heir : ∀ i ∈ graph, ∀ level, levels.find? i.parent = some level → level + 1 < names.length →
    i.heir ∈ levels.keys

namespace IsSettled

variable (h : IsSettled graph names levels)

include h

/-- The classes on level 0 are the roots. -/
theorem find?_eq_zero_iff :
  levels.find? name = some 0 ↔ name ∈ roots graph names
  := by
  constructor
  · intro hname
    obtain ⟨root, hroot, hchain⟩ := h.level name 0 hname
    cases hchain
    exact hroot
  · intro hname
    obtain ⟨level, hlevel⟩ := Catalog.exists_find?_iff.mpr (h.root name hname)
    obtain ⟨root, -, hchain⟩ := h.level name level hlevel
    cases hchain with
    | refl => exact hlevel
    | step _ hi => exact absurd hi ((mem_roots.mp hname).2 _)

/-- Above a class without a level to which a root leads there is a class on the last level, with an heir
that has no level. -/
theorem exists_last (hn : n ∈ chainLengths graph names name) (hname : name ∉ levels.keys) :
  ∃ i ∈ graph, levels.find? i.parent = some (names.length - 1) ∧ i.heir ∉ levels.keys
  := by
  obtain ⟨root, hroot, hchain⟩ := hn
  induction hchain with
  | refl => exact absurd (h.root root hroot) hname
  | @step n parent heir _ hi ih =>
    by_cases hparent : parent ∈ levels.keys
    · obtain ⟨level, hlevel⟩ := Catalog.exists_find?_iff.mpr hparent
      have hlt := h.above parent level hlevel
      have hlast : level = names.length - 1 := by
        by_contra hne
        apply hname (h.heir _ hi level hlevel (by omega))
      exact ⟨_, hi, hlast ▸ hlevel, hname⟩
    · apply ih hparent

end IsSettled

/-! ### Classes without levels -/

/-- A class that is put below all others is the deepest. -/
theorem deepest_put (h : levels.find? name = none) (hlevel : deepest levels ≤ level) :
  deepest (levels.put name level) = level
  := by
  rw [deepest, Catalog.values, Catalog.entries_put_of_find?_eq_none h, List.map_append,
    List.foldl_append, ← Catalog.values, ← deepest]
  exact max_eq_right hlevel

/-- What is found in settled levels stays, and the other names are put below all of these, the later
ones below the earlier ones. -/
structure IsAppended (levels levels' : Catalog ℕ) (names : List String) : Prop where
  kept : ∀ name level, levels.find? name = some level → levels'.find? name = some level
  below : ∀ name ∈ names, name ∉ levels.keys → ∃ level, levels'.find? name = some level
    ∧ deepest levels < level ∧ level ≤ deepest levels + names.length
  increasing : names.Pairwise fun a b => a ∉ levels.keys → b ∉ levels.keys →
    ClassDiagram.IsAbove levels' a b

namespace IsAppended

variable {first : String} {levels' : Catalog ℕ}

/-- A name with a level stays as it is. -/
theorem skip (h : IsAppended levels levels' rest) (hfirst : first ∈ levels.keys) :
  IsAppended levels levels' (first :: rest)
  := by
  constructor
  case kept => exact h.kept
  case below =>
    intro name hmem hname
    obtain ⟨level, hlevel, hlt, hle⟩ := h.below name
      ((List.mem_cons.mp hmem).resolve_left (ne_of_mem_of_not_mem hfirst hname).symm) hname
    exact ⟨level, hlevel, hlt, hle.trans (Nat.add_le_add_left (Nat.le_succ _) _)⟩
  case increasing =>
    apply List.pairwise_cons.mpr ⟨_, h.increasing⟩
    intro _ _ hnot
    contradiction

/-- A name without a level is put right below the deepest level. -/
theorem put (h : IsAppended (levels.put first (deepest levels + 1)) levels' rest)
    (hfirst : levels.find? first = none) (hfresh : first ∉ rest) :
  IsAppended levels levels' (first :: rest)
  := by
  have hdeepest : deepest (levels.put first (deepest levels + 1)) = deepest levels + 1 :=
    deepest_put hfirst (Nat.le_succ _)
  have hlevel : levels'.find? first = some (deepest levels + 1) := by
    apply h.kept
    rw [Catalog.find?_put, if_pos rfl]
  have hother : ∀ name ∈ rest, name ∉ levels.keys →
      name ∉ (levels.put first (deepest levels + 1)).keys := by
    intro name hmem hname
    rw [Catalog.mem_keys_put, not_or]
    exact ⟨hname, ne_of_mem_of_not_mem hmem hfresh⟩
  -- The other names go below the first, which is the deepest now.
  have hbelow : ∀ name ∈ rest, name ∉ levels.keys → ∃ level, levels'.find? name = some level
      ∧ deepest levels + 1 < level ∧ level ≤ deepest levels + 1 + rest.length := by
    intro name hmem hname
    rw [← hdeepest]
    apply h.below name hmem (hother name hmem hname)
  constructor
  case kept =>
    intro name level hname
    apply h.kept
    rw [Catalog.find?_put, if_neg]
    · exact hname
    · rintro rfl
      rw [hfirst] at hname
      contradiction
  case below =>
    intro name hmem hname
    rw [List.length_cons]
    rcases List.mem_cons.mp hmem with rfl | hmem
    · exact ⟨_, hlevel, by omega, by omega⟩
    · obtain ⟨level, hfind, hlt, hle⟩ := hbelow name hmem hname
      exact ⟨level, hfind, by omega, by omega⟩
  case increasing =>
    apply List.pairwise_cons.mpr
    constructor
    · intro name hmem _ hname
      obtain ⟨level, hfind, hlt, -⟩ := hbelow name hmem hname
      exact ⟨_, level, hlevel, hfind, hlt⟩
    · apply h.increasing.imp_of_mem
      intro a b ha hb hab hnota hnotb
      apply hab (hother a ha hnota) (hother b hb hnotb)

end IsAppended

/-- Appending puts the other names below all levels. -/
theorem isAppended_append (levels : Catalog ℕ) (hnodup : names.Nodup) :
  IsAppended levels (append levels names) names
  := by
  induction names generalizing levels with
  | nil => exact ⟨fun _ _ => id, nofun, .nil⟩
  | cons first rest ih =>
    obtain ⟨hfresh, hrest⟩ := List.nodup_cons.mp hnodup
    rw [append]
    split_ifs with hfirst
    · apply (ih levels hrest).skip (Catalog.contains_iff.mp hfirst)
    · apply (ih _ hrest).put _ hfresh
      rw [Catalog.find?_eq_none_iff, ← Catalog.contains_iff]
      exact hfirst

end Levelling

namespace ClassDiagram

variable {d : ClassDiagram} {levels : Catalog ℕ} {name : String}

/-! ### The levels of a diagram -/

/-- A root leads to the class, over inheritances between classes of the diagram. -/
def IsRooted (d : ClassDiagram) (name : String) : Prop :=
  (d.chainLengths name).Nonempty

/-- The levels when all visits have been made. -/
def settled (d : ClassDiagram) : Catalog ℕ :=
  (Levelling.settle d.inheritances d.classes.size (d.classes.size * (d.classes.size + 1))
    (.initial (roots d.inheritances d.classes.keys))).levels

/-- There are levels when there is a root: those of the settled classes, with the others
appended. -/
theorem levels?_eq (d : ClassDiagram) :
  d.levels? = if (roots d.inheritances d.classes.keys).isEmpty then none
    else some (Levelling.append d.settled d.classes.keys)
  := rfl

/-- All visits have been made in the end. -/
theorem queue_settled (d : ClassDiagram) :
  (Levelling.settle d.inheritances d.classes.size (d.classes.size * (d.classes.size + 1))
    (.initial (roots d.inheritances d.classes.keys))).queue = []
  := by
  rw [← length_keys]
  apply Levelling.queue_settle_initial d.relatesOnly_inheritances

/-- The visits come to an end, whatever the inheritances are. -/
theorem settles_settled (d : ClassDiagram) :
  Levelling.Settles d.inheritances d.classes.size (.initial (roots d.inheritances d.classes.keys))
    d.settled
  := Levelling.settles_settle (Levelling.isSound_initial _ d.classes.keys d.classes.size).reached
    d.queue_settled

/-- The settled levels are lengths of chains, as far as the limit allows. -/
theorem isSettled_settled (d : ClassDiagram) :
  Levelling.IsSettled d.inheritances d.classes.keys d.settled
  := by
  have hsound := (Levelling.isSound_initial d.inheritances d.classes.keys d.classes.size).settle
    (d.classes.size * (d.classes.size + 1))
  constructor
  case above =>
    rw [settled, ← length_keys]
    apply Levelling.staysAbove_settle
  case level => exact hsound.reached.level
  case root => exact hsound.reached.root
  case heir =>
    intro i hi level hlevel hlt
    rcases hsound.respected i hi level hlevel with hqueued | hlimit | ⟨below, hbelow, -⟩
    · rw [d.queue_settled] at hqueued
      contradiction
    · rw [length_keys] at hlt
      omega
    · exact Catalog.exists_find?_iff.mp ⟨below, hbelow⟩

/-- There are no levels exactly when every class has a parent among the classes. -/
theorem levels?_eq_none_iff :
  d.levels? = none ↔ ∀ name ∈ d.classes.keys, ∃ parent, ⟨name, parent⟩ ∈ d.inheritances
  := by
  have hroots : (roots d.inheritances d.classes.keys).isEmpty = true
      ↔ ∀ name ∈ d.classes.keys, ∃ parent, ⟨name, parent⟩ ∈ d.inheritances := by
    simp only [List.isEmpty_iff, List.eq_nil_iff_forall_not_mem, mem_roots, not_and, not_forall,
      not_not]
  rw [← hroots, levels?_eq]
  split_ifs with hempty
  · exact iff_of_true rfl hempty
  · exact iff_of_false nofun hempty

/-- The levels are the settled ones, with the other classes appended. -/
theorem isAppended_of_levels? (h : d.levels? = some levels) :
  Levelling.IsAppended d.settled levels d.classes.keys
  := by
  rw [levels?_eq] at h
  split_ifs at h
  rw [← Option.some.inj h]
  apply Levelling.isAppended_append _ d.classes.nodup

/-- Every class has one level. The classes without parents are those on level 0, and a class to which
none of them leads shares its level with no other class and stands below those in front of it. -/
structure HasLevels (d : ClassDiagram) (levels : Catalog ℕ) : Prop where
  once : levels.keys.Perm d.classes.keys
  bounded : ∀ name level, levels.find? name = some level → level < 2 * d.classes.size
  root : ∀ name, levels.find? name = some 0
    ↔ name ∈ d.classes.keys ∧ ∀ parent, ⟨name, parent⟩ ∉ d.inheritances
  alone : ∀ name ∈ d.classes.keys, ¬d.IsRooted name →
    ∀ other, levels.find? other = levels.find? name → other = name
  increasing : d.classes.keys.Pairwise fun a b => ¬d.IsRooted a → ¬d.IsRooted b →
    IsAbove levels a b

/-- A root leads to every settled class. -/
theorem isRooted_of_mem_settled (h : name ∈ d.settled.keys) :
  d.IsRooted name
  := by
  obtain ⟨level, hlevel⟩ := Catalog.exists_find?_iff.mpr h
  exact ⟨level, d.isSettled_settled.level name level hlevel⟩

section Levels

variable (h : d.levels? = some levels)

include h

/-- A settled class keeps its level. -/
theorem find?_of_mem_settled (hname : name ∈ d.settled.keys) :
  levels.find? name = d.settled.find? name
  := by
  obtain ⟨level, hlevel⟩ := Catalog.exists_find?_iff.mpr hname
  rw [hlevel]
  apply (isAppended_of_levels? h).kept name level hlevel

/-- A class that got no level in the visits stands below all classes that got one. -/
theorem exists_level_of_not_mem_settled (hname : name ∈ d.classes.keys)
    (hsettled : name ∉ d.settled.keys) :
  ∃ level, levels.find? name = some level ∧ Levelling.deepest d.settled < level
    ∧ level < 2 * d.classes.size
  := by
  obtain ⟨level, hlevel, hlt, hle⟩ := (isAppended_of_levels? h).below name hname hsettled
  have hdeepest := d.isSettled_settled.above.deepest_lt (List.length_pos_of_mem hname)
  rw [length_keys] at hle hdeepest
  exact ⟨level, hlevel, hlt, by omega⟩

/-- A settled class stands above the number of classes. -/
theorem lt_of_mem_settled (hname : name ∈ d.settled.keys) (hlevel : levels.find? name = some level) :
  level ≤ Levelling.deepest d.settled ∧ level < d.classes.size
  := by
  rw [find?_of_mem_settled h hname] at hlevel
  have hlt := d.isSettled_settled.above name level hlevel
  rw [length_keys] at hlt
  exact ⟨le_deepest hlevel, hlt⟩

/-- An appended class shares its level with no other. -/
theorem eq_of_find?_eq {other : String} (hname : name ∈ d.classes.keys)
    (hsettled : name ∉ d.settled.keys) (heq : levels.find? other = levels.find? name) :
  other = name
  := by
  obtain ⟨level, hlevel, hlt, -⟩ := exists_level_of_not_mem_settled h hname hsettled
  rw [hlevel] at heq
  have hother : other ∈ d.classes.keys :=
    (mem_keys_levels h).mp (Catalog.exists_find?_iff.mp ⟨level, heq⟩)
  have hother' : other ∉ d.settled.keys := by
    intro hmem
    have hle := (lt_of_mem_settled h hmem heq).1
    omega
  have hpairs : d.classes.keys.Pairwise fun a b => a ∉ d.settled.keys → b ∉ d.settled.keys →
      levels.find? a ≠ levels.find? b := by
    apply (isAppended_of_levels? h).increasing.imp
    intro a b hab ha hb
    obtain ⟨m, n, hm, hn, hlt⟩ := hab ha hb
    rw [hm, hn, Ne, Option.some.injEq]
    apply hlt.ne
  have hsymm : Std.Symm fun a b => a ∉ d.settled.keys → b ∉ d.settled.keys →
      levels.find? a ≠ levels.find? b := ⟨fun _ _ hab hb ha => (hab ha hb).symm⟩
  by_contra hne
  apply hpairs.forall hother hname hne hother' hsettled
  rw [heq, hlevel]

/-- Whatever the inheritances are, the levels are as they should be. -/
theorem hasLevels_of_levels? :
  d.HasLevels levels
  := by
  have hsettled := d.isSettled_settled
  constructor
  case once =>
    apply (List.perm_ext_iff_of_nodup levels.nodup d.classes.nodup).mpr
    exact fun name => mem_keys_levels h
  case bounded =>
    intro name level hlevel
    -- Settled classes stand above the number of classes, appended ones within as many levels again.
    by_cases hname : name ∈ d.settled.keys
    · have hlt := (lt_of_mem_settled h hname hlevel).2
      omega
    · have hmem := (mem_keys_levels h).mp (Catalog.exists_find?_iff.mp ⟨level, hlevel⟩)
      obtain ⟨level', hlevel', -, hlt⟩ := exists_level_of_not_mem_settled h hmem hname
      rw [hlevel, Option.some.injEq] at hlevel'
      omega
  case root =>
    intro name
    rw [← mem_roots, ← hsettled.find?_eq_zero_iff]
    by_cases hname : name ∈ d.settled.keys
    · rw [find?_of_mem_settled h hname]
    · apply iff_of_false
      · intro hzero
        have hmem := (mem_keys_levels h).mp (Catalog.exists_find?_iff.mp ⟨0, hzero⟩)
        obtain ⟨level, hlevel, hlt, -⟩ := exists_level_of_not_mem_settled h hmem hname
        rw [hzero, Option.some.injEq] at hlevel
        omega
      · exact fun hzero => hname (Catalog.exists_find?_iff.mp ⟨0, hzero⟩)
  case alone =>
    intro name hname hrooted other
    apply eq_of_find?_eq h hname (mt isRooted_of_mem_settled hrooted)
  case increasing =>
    apply (isAppended_of_levels? h).increasing.imp
    intro a b hab ha hb
    apply hab (mt isRooted_of_mem_settled ha) (mt isRooted_of_mem_settled hb)

end Levels

end ClassDiagram

end DiagramLayout
