import DiagramLayout.Diagram.Model
import DiagramLayout.Proofs.Catalog
import DiagramLayout.Proofs.Text.Blank
import Mathlib

/-!
# Well-formed models

In a well-formed diagram the ends of everything are members of the sets of names, the ids of each list
are numbered from one on, and every text is trimmed. The operations that build a diagram keep it
well-formed, provided that the texts they are given are trimmed.
-/

namespace DiagramLayout

/-! ### Numbered ids -/

/-- The ids are a label with the numbers from one on. -/
def IsNumbered (label : String) (ids : List String) : Prop :=
  ∀ i (h : i < ids.length), ids[i] = label ++ toString (i + 1)

namespace IsNumbered

variable {label other : String} {ids others : List String}

theorem nil (label : String) :
  IsNumbered label []
  := by
  intro i h
  contradiction

/-- The ids stay numbered when the next number is appended. -/
theorem concat (h : IsNumbered label ids) :
  IsNumbered label (ids ++ [label ++ toString (ids.length + 1)])
  := by
  intro i hi
  rw [List.getElem_append]
  split_ifs with hlt
  · apply h i hlt
  · rw [List.length_append, List.length_singleton] at hi
    have hlast : i = ids.length := by omega
    subst hlast
    rw [List.getElem_singleton]

/-- An element that is added behind the others with the next number keeps the ids numbered. -/
theorem concat_map {α : Type} {id : α → String} {list : List α} {a : α}
    (h : IsNumbered label (list.map id)) (ha : id a = label ++ toString (list.length + 1)) :
  IsNumbered label ((list ++ [a]).map id)
  := by
  have hlength : (list.map id).length = list.length := List.length_map id
  rw [List.map_append, List.map_singleton, ha, ← hlength]
  apply h.concat

/-- Numbered ids are distinct. -/
theorem nodup (h : IsNumbered label ids) :
  ids.Nodup
  := by
  rw [List.Nodup, List.pairwise_iff_getElem]
  intro i j hi hj hlt heq
  rw [h i hi, h j hj, String.append_right_inj, Nat.toString_eq_repr, Nat.toString_eq_repr,
    Nat.repr_inj] at heq
  omega

/-- Ids under labels that differ within their first characters are different. -/
theorem disjoint (h : IsNumbered label ids) (hothers : IsNumbered other others) (n : ℕ)
    (hlabel : n ≤ label.toList.length) (hother : n ≤ other.toList.length)
    (hne : label.toList.take n ≠ other.toList.take n) :
  ids.Disjoint others
  := by
  intro id hid hmem
  obtain ⟨i, hi, rfl⟩ := List.getElem_of_mem hid
  obtain ⟨j, hj, heq⟩ := List.getElem_of_mem hmem
  rw [h i hi, hothers j hj] at heq
  apply hne
  have htake := congrArg (fun text => text.toList.take n) heq
  rw [String.toList_append, String.toList_append, List.take_append_of_le_length hother,
    List.take_append_of_le_length hlabel] at htake
  exact htake.symm

/-- All ids of some lists are distinct when the labels of the lists differ within their first
characters. -/
theorem nodup_flatMap {lists : List (String × List String)} (h : ∀ e ∈ lists, IsNumbered e.1 e.2)
    (n : ℕ) (hlength : ∀ label ∈ lists.map Prod.fst, n ≤ label.toList.length)
    (hne : (lists.map Prod.fst).Pairwise fun label other =>
      label.toList.take n ≠ other.toList.take n) :
  (lists.flatMap Prod.snd).Nodup
  := by
  rw [List.nodup_flatMap]
  constructor
  · intro e he
    apply (h e he).nodup
  · apply (List.pairwise_map.mp hne).imp_of_mem
    intro e f he hf hef
    exact (h e he).disjoint (h f hf) n (hlength _ (List.mem_map_of_mem he))
      (hlength _ (List.mem_map_of_mem hf)) hef

end IsNumbered

/-! ### Additions to lists and sets of names -/

/-- What holds of the elements of a list becomes what holds of all when one is added behind them. -/
theorem forall_mem_concat {α : Type} {P Q : α → Prop} {list : List α} {last : α}
    (h : ∀ a ∈ list, P a) (hstep : ∀ a, P a → Q a) (hlast : Q last) :
  ∀ a ∈ list ++ [last], Q a
  := by
  intro a ha
  rcases List.mem_append.mp ha with ha | ha
  · apply hstep a (h a ha)
  · obtain rfl := List.mem_singleton.mp ha
    exact hlast

namespace NameSet

variable {s : NameSet} {name other : String}

/-- A property of all names of a set stays one, when the name that is inserted has it. -/
theorem forall_mem_insert {P : String → Prop} (h : ∀ other ∈ s, P other) (hname : P name) :
  ∀ other ∈ s.insert name, P other
  := by
  intro other hother
  rcases mem_insert.mp hother with hother | rfl
  · apply h other hother
  · exact hname

theorem mem_insert_self (s : NameSet) (name : String) :
  name ∈ s.insert name
  := mem_insert.mpr (Or.inr rfl)

theorem mem_insert_of_mem (h : other ∈ s) :
  other ∈ s.insert name
  := mem_insert.mpr (Or.inl h)

end NameSet

/-! ### Use case diagrams -/

namespace UseCaseDiagram

/-- The ends of the associations are members, the ids are numbered and the names are trimmed. -/
structure IsWellFormed (d : UseCaseDiagram) : Prop where
  actor_mem : ∀ a ∈ d.associations, a.actor ∈ d.actors
  useCase_mem : ∀ a ∈ d.associations, a.useCase ∈ d.useCases
  numbered : IsNumbered "usecase-association-" (d.associations.map Association.id)
  actors : ∀ name ∈ d.actors, IsTrimmed name
  useCases : ∀ name ∈ d.useCases, IsTrimmed name

/-- The texts in the diagram. -/
def texts (d : UseCaseDiagram) : List String :=
  d.actors.toList ++ d.useCases.toList ++ d.associations.flatMap fun a => [a.actor, a.useCase]

theorem isWellFormed_empty :
  empty.IsWellFormed
  where
  actor_mem := nofun
  useCase_mem := nofun
  numbered := .nil _
  actors := nofun
  useCases := nofun

namespace IsWellFormed

variable {d : UseCaseDiagram}

/-- An association between trimmed names keeps a diagram well-formed. -/
theorem associate (h : d.IsWellFormed) {actor useCase : String} (hactor : IsTrimmed actor)
    (huseCase : IsTrimmed useCase) (isAsync : Bool) :
  (d.associate actor useCase isAsync).IsWellFormed
  where
  actor_mem := forall_mem_concat h.actor_mem (fun _ => NameSet.mem_insert_of_mem)
    (NameSet.mem_insert_self d.actors actor)
  useCase_mem := forall_mem_concat h.useCase_mem (fun _ => NameSet.mem_insert_of_mem)
    (NameSet.mem_insert_self d.useCases useCase)
  numbered := h.numbered.concat_map rfl
  actors := NameSet.forall_mem_insert h.actors hactor
  useCases := NameSet.forall_mem_insert h.useCases huseCase

/-- All texts of a well-formed diagram are trimmed. -/
theorem isTrimmed (h : d.IsWellFormed) :
  ∀ text ∈ d.texts, IsTrimmed text
  := by
  intro text htext
  simp only [texts, List.mem_append, List.mem_flatMap, List.mem_pair] at htext
  rcases htext with (hmem | hmem) | ⟨a, ha, rfl | rfl⟩
  · apply h.actors text hmem
  · apply h.useCases text hmem
  · apply h.actors _ (h.actor_mem a ha)
  · apply h.useCases _ (h.useCase_mem a ha)

end IsWellFormed

end UseCaseDiagram

/-! ### Sequence diagrams -/

namespace SequenceDiagram

/-- The ends of the messages and the participants of activations and commands are members, the ids of
each list are numbered and the texts are trimmed. -/
structure IsWellFormed (d : SequenceDiagram) : Prop where
  sender_mem : ∀ m ∈ d.messages, m.sender ∈ d.participants
  receiver_mem : ∀ m ∈ d.messages, m.receiver ∈ d.participants
  activation_mem : ∀ a ∈ d.activations, a.participant ∈ d.participants
  command_mem : ∀ c ∈ d.commands, c.participant ∈ d.participants
  messages_numbered : IsNumbered "sequence-message-" (d.messages.map Message.id)
  activations_numbered : IsNumbered "activation-" (d.activations.map Activation.id)
  commands_numbered : IsNumbered "seq-command-" (d.commands.map SequenceCommand.id)
  participants : ∀ name ∈ d.participants, IsTrimmed name
  messages : ∀ m ∈ d.messages, IsTrimmed m.text

/-- The texts in the diagram. -/
def texts (d : SequenceDiagram) : List String :=
  d.participants.toList ++ d.messages.flatMap (fun m => [m.sender, m.receiver, m.text])
    ++ d.activations.map Activation.participant ++ d.commands.map SequenceCommand.participant

theorem isWellFormed_empty :
  empty.IsWellFormed
  where
  sender_mem := nofun
  receiver_mem := nofun
  activation_mem := nofun
  command_mem := nofun
  messages_numbered := .nil _
  activations_numbered := .nil _
  commands_numbered := .nil _
  participants := nofun
  messages := nofun

namespace IsWellFormed

variable {d : SequenceDiagram}

/-- A message with trimmed texts keeps a diagram well-formed. -/
theorem send (h : d.IsWellFormed) {sender receiver text : String} (hsender : IsTrimmed sender)
    (hreceiver : IsTrimmed receiver) (htext : IsTrimmed text) (isAsync : Bool) :
  (d.send sender receiver text isAsync).IsWellFormed
  := by
  have hkeep : ∀ name ∈ d.participants, name ∈ (d.participants.insert sender).insert receiver := by
    intro name hname
    apply NameSet.mem_insert_of_mem
    apply NameSet.mem_insert_of_mem hname
  exact
    { sender_mem := by
        apply forall_mem_concat h.sender_mem fun m => hkeep m.sender
        apply NameSet.mem_insert_of_mem
        apply NameSet.mem_insert_self
      receiver_mem := by
        apply forall_mem_concat h.receiver_mem fun m => hkeep m.receiver
        apply NameSet.mem_insert_self
      activation_mem := fun a ha => hkeep _ (h.activation_mem a ha)
      command_mem := fun c hc => hkeep _ (h.command_mem c hc)
      messages_numbered := h.messages_numbered.concat_map rfl
      activations_numbered := h.activations_numbered
      commands_numbered := h.commands_numbered
      participants := NameSet.forall_mem_insert (NameSet.forall_mem_insert h.participants hsender)
        hreceiver
      messages := forall_mem_concat h.messages (fun _ => id) htext }

/-- An activation command for a trimmed name keeps a diagram well-formed. -/
theorem give (h : d.IsWellFormed) (command : ActivationCommand) {participant : String}
    (hparticipant : IsTrimmed participant) :
  (d.give command participant).IsWellFormed
  := by
  have hkeep : ∀ name ∈ d.participants, name ∈ d.participants.insert participant := by
    intro name hname
    apply NameSet.mem_insert_of_mem hname
  exact
    { sender_mem := fun m hm => hkeep _ (h.sender_mem m hm)
      receiver_mem := fun m hm => hkeep _ (h.receiver_mem m hm)
      activation_mem := fun a ha => hkeep _ (h.activation_mem a ha)
      command_mem := by
        apply forall_mem_concat h.command_mem fun c => hkeep c.participant
        apply NameSet.mem_insert_self
      messages_numbered := h.messages_numbered
      activations_numbered := h.activations_numbered
      commands_numbered := h.commands_numbered.concat_map rfl
      participants := NameSet.forall_mem_insert h.participants hparticipant
      messages := h.messages }

/-- An activation of a declared participant keeps a diagram well-formed. -/
theorem activateFrom (h : d.IsWellFormed) {participant : String}
    (hparticipant : participant ∈ d.participants) (start : ℕ) :
  (d.activateFrom participant start).IsWellFormed
  :=
  { h with
    activation_mem := forall_mem_concat h.activation_mem (fun _ => id) hparticipant
    activations_numbered := h.activations_numbered.concat_map rfl }

theorem isTrimmed (h : d.IsWellFormed) :
  ∀ text ∈ d.texts, IsTrimmed text
  := by
  intro text htext
  simp only [texts, List.mem_append, List.mem_flatMap, List.mem_map, List.mem_cons,
    List.not_mem_nil, or_false] at htext
  rcases htext with ((hmem | ⟨m, hm, rfl | rfl | rfl⟩) | ⟨a, ha, rfl⟩) | ⟨c, hc, rfl⟩
  · apply h.participants text hmem
  · apply h.participants _ (h.sender_mem m hm)
  · apply h.participants _ (h.receiver_mem m hm)
  · apply h.messages m hm
  · apply h.participants _ (h.activation_mem a ha)
  · apply h.participants _ (h.command_mem c hc)

end IsWellFormed

end SequenceDiagram

/-! ### Class diagrams -/

namespace ClassNode

/-- The name is trimmed, each member is a trimmed text that is not empty, and the methods are the members
with both parentheses. -/
structure IsWellFormed (c : ClassNode) : Prop where
  name : IsTrimmed c.name
  attributes : ∀ a ∈ c.attributes, a ≠ "" ∧ IsTrimmed a ∧ ¬('(' ∈ a.toList ∧ ')' ∈ a.toList)
  methods : ∀ m ∈ c.methods, m ≠ "" ∧ IsTrimmed m ∧ '(' ∈ m.toList ∧ ')' ∈ m.toList

theorem isWellFormed_bare {name : String} (h : IsTrimmed name) :
  (bare name).IsWellFormed
  where
  name := h
  attributes := nofun
  methods := nofun

/-- A member is a method when it has both parentheses, in any order. -/
theorem isMethod_iff {member : List Char} :
  isMethod member = true ↔ '(' ∈ member ∧ ')' ∈ member
  := by
  rw [isMethod, Bool.and_eq_true, List.contains_iff_mem, List.contains_iff_mem]

theorem name_addMember (c : ClassNode) (text : List Char) :
  (c.addMember text).name = c.name
  := by
  simp only [addMember]
  split_ifs
  all_goals rfl

theorem name_addMembers (c : ClassNode) (texts : List (List Char)) :
  (c.addMembers texts).name = c.name
  := by
  induction texts generalizing c with
  | nil => rfl
  | cons text rest ih =>
    rw [addMembers, List.foldl_cons, ← addMembers, ih, name_addMember]

namespace IsWellFormed

variable {c : ClassNode}

/-- A member is trimmed when it is added, so any text keeps a class well-formed. -/
theorem addMember (h : c.IsWellFormed) (text : List Char) :
  (c.addMember text).IsWellFormed
  := by
  simp only [ClassNode.addMember]
  split_ifs with hempty hmethod
  · exact h
  all_goals
    have hne : String.ofList (trim text) ≠ "" := by
      rw [← String.ofList_nil, ne_eq, String.ofList_inj, ← List.isEmpty_iff]
      exact hempty
    have htrimmed : IsTrimmed (String.ofList (trim text)) := isTrimmed_trimmed text
    rw [isMethod_iff, ← String.toList_ofList (l := trim text)] at hmethod
  · exact { h with methods := forall_mem_concat h.methods (fun _ => id) ⟨hne, htrimmed, hmethod⟩ }
  · exact
      { h with attributes := forall_mem_concat h.attributes (fun _ => id) ⟨hne, htrimmed, hmethod⟩ }

/-- Members are trimmed when they are added, so any texts keep a class well-formed. -/
theorem addMembers (h : c.IsWellFormed) (texts : List (List Char)) :
  (c.addMembers texts).IsWellFormed
  := by
  induction texts generalizing c with
  | nil => exact h
  | cons text rest ih => exact ih (h.addMember text)

/-- The name and all members of a well-formed class are trimmed. -/
theorem isTrimmed (h : c.IsWellFormed) :
  ∀ text ∈ c.name :: (c.attributes ++ c.methods), IsTrimmed text
  := by
  intro text htext
  rcases List.mem_cons.mp htext with rfl | hmem
  · exact h.name
  · rcases List.mem_append.mp hmem with ha | hm
    · exact (h.attributes text ha).2.1
    · exact (h.methods text hm).2.1

end IsWellFormed

end ClassNode

namespace ClassDiagram

/-- Each class stands under its name and is well-formed, the ends of the relations are names of classes,
and the ids are numbered. -/
structure IsWellFormed (d : ClassDiagram) : Prop where
  classes : ∀ e ∈ d.classes.entries, e.2.name = e.1 ∧ e.2.IsWellFormed
  source_mem : ∀ r ∈ d.relations, r.source ∈ d.classes.keys
  target_mem : ∀ r ∈ d.relations, r.target ∈ d.classes.keys
  numbered : IsNumbered "class-relation-" (d.relations.map ClassRelation.id)

/-- The texts in the diagram. -/
def texts (d : ClassDiagram) : List String :=
  d.classes.keys ++ d.classes.values.flatMap (fun c => c.name :: (c.attributes ++ c.methods))
    ++ d.relations.flatMap fun r => [r.source, r.target]

theorem isWellFormed_empty :
  empty.IsWellFormed
  where
  classes := nofun
  source_mem := nofun
  target_mem := nofun
  numbered := .nil _

namespace IsWellFormed

variable {d : ClassDiagram}

/-- A change of a class that keeps its name and keeps it well-formed keeps the diagram so. -/
theorem adjust (h : d.IsWellFormed) {name : String} (hname : IsTrimmed name)
    {update : ClassNode → ClassNode} (hkeep : ∀ c, (update c).name = c.name)
    (hupdate : ∀ c : ClassNode, c.IsWellFormed → (update c).IsWellFormed) :
  (d.adjust name update).IsWellFormed
  where
  classes := by
    refine Catalog.forall_entries_adjust (c := d.classes)
      (P := fun key (c : ClassNode) => c.name = key ∧ c.IsWellFormed) ?_ ?_ h.classes
    · exact ⟨rfl, ClassNode.isWellFormed_bare hname⟩
    · intro c hc
      rw [hkeep]
      exact ⟨hc.1, hupdate c hc.2⟩
  source_mem := fun r hr => (Catalog.mem_keys_adjust _ _).mpr (Or.inl (h.source_mem r hr))
  target_mem := fun r hr => (Catalog.mem_keys_adjust _ _).mpr (Or.inl (h.target_mem r hr))
  numbered := h.numbered

/-- Declaring a class of a trimmed name keeps a diagram well-formed. -/
theorem ensure (h : d.IsWellFormed) {name : String} (hname : IsTrimmed name) :
  (d.ensure name).IsWellFormed
  := h.adjust hname (fun _ => rfl) (fun _ => id)

/-- A relation between trimmed names keeps a diagram well-formed. -/
theorem relate (h : d.IsWellFormed) (kind : RelationKind) {source target : String}
    (hsource : IsTrimmed source) (htarget : IsTrimmed target) :
  (d.relate kind source target).IsWellFormed
  := by
  have hknown := (h.ensure hsource).ensure htarget
  have hmem : source ∈ ((d.ensure source).ensure target).classes.keys := by
    apply (Catalog.mem_keys_adjust _ _).mpr
    left
    apply (Catalog.mem_keys_adjust _ _).mpr
    right
    rfl
  exact
    { classes := hknown.classes
      source_mem := forall_mem_concat hknown.source_mem (fun _ => id) hmem
      target_mem := forall_mem_concat hknown.target_mem (fun _ => id)
        ((Catalog.mem_keys_adjust _ _).mpr (Or.inr rfl))
      numbered := hknown.numbered.concat_map rfl }

/-- The names under which classes stand are trimmed. -/
theorem isTrimmed_key (h : d.IsWellFormed) :
  ∀ key ∈ d.classes.keys, IsTrimmed key
  := by
  intro key hkey
  obtain ⟨e, he, rfl⟩ := List.mem_map.mp hkey
  obtain ⟨hname, hnode⟩ := h.classes e he
  rw [← hname]
  exact hnode.name

theorem isTrimmed (h : d.IsWellFormed) :
  ∀ text ∈ d.texts, IsTrimmed text
  := by
  intro text htext
  simp only [texts, List.mem_append, List.mem_flatMap, List.mem_pair] at htext
  rcases htext with (hkey | ⟨c, hc, hmem⟩) | ⟨r, hr, rfl | rfl⟩
  · apply h.isTrimmed_key text hkey
  · obtain ⟨e, he, rfl⟩ := List.mem_map.mp hc
    apply (h.classes e he).2.isTrimmed text hmem
  · apply h.isTrimmed_key _ (h.source_mem r hr)
  · apply h.isTrimmed_key _ (h.target_mem r hr)

end IsWellFormed

end ClassDiagram

/-! ### State diagrams -/

namespace StateDiagram

/-- The ends of the transitions are states or the pseudo state, which is no state, the ids are numbered
and the texts are trimmed. -/
structure IsWellFormed (d : StateDiagram) : Prop where
  source_mem : ∀ t ∈ d.transitions, t.source = "*" ∨ t.source ∈ d.states
  target_mem : ∀ t ∈ d.transitions, t.target = "*" ∨ t.target ∈ d.states
  pseudo_not_mem : "*" ∉ d.states
  numbered : IsNumbered "state-transition-" (d.transitions.map Transition.id)
  states : ∀ name ∈ d.states, IsTrimmed name
  labels : ∀ t ∈ d.transitions, IsTrimmed t.label

/-- The texts in the diagram. -/
def texts (d : StateDiagram) : List String :=
  d.states.toList ++ d.transitions.flatMap fun t => [t.source, t.target, t.label]

theorem isWellFormed_empty :
  empty.IsWellFormed
  where
  source_mem := nofun
  target_mem := nofun
  pseudo_not_mem := nofun
  numbered := .nil _
  states := nofun
  labels := nofun

/-- A declared name is a member unless it is the one of the pseudo state. -/
theorem mem_declare {states : NameSet} {name other : String} :
  other ∈ declare states name ↔ other ∈ states ∨ other = name ∧ name ≠ Transition.pseudo
  := by
  rw [declare]
  split_ifs with hpseudo
  · simp [hpseudo]
  · simp [hpseudo]

namespace IsWellFormed

variable {d : StateDiagram}

/-- A transition with trimmed texts keeps a diagram well-formed. -/
theorem connect (h : d.IsWellFormed) {source target label : String} (hsource : IsTrimmed source)
    (htarget : IsTrimmed target) (hlabel : IsTrimmed label) (isAsync : Bool) :
  (d.connect source target label isAsync).IsWellFormed
  := by
  have hkeep : ∀ name, name = "*" ∨ name ∈ d.states →
      name = "*" ∨ name ∈ declare (declare d.states source) target := by
    intro name hname
    rw [mem_declare, mem_declare]
    exact hname.imp_right fun hmem => Or.inl (Or.inl hmem)
  exact
    { source_mem := by
        apply forall_mem_concat h.source_mem fun t => hkeep t.source
        change source = "*" ∨ source ∈ declare (declare d.states source) target
        rw [mem_declare, mem_declare]
        by_cases hpseudo : source = "*"
        · exact Or.inl hpseudo
        · exact Or.inr (Or.inl (Or.inr ⟨rfl, hpseudo⟩))
      target_mem := by
        apply forall_mem_concat h.target_mem fun t => hkeep t.target
        change target = "*" ∨ target ∈ declare (declare d.states source) target
        rw [mem_declare]
        by_cases hpseudo : target = "*"
        · exact Or.inl hpseudo
        · exact Or.inr (Or.inr ⟨rfl, hpseudo⟩)
      pseudo_not_mem := by
        change "*" ∉ declare (declare d.states source) target
        rw [mem_declare, mem_declare]
        rintro ((hmem | ⟨heq, hne⟩) | ⟨heq, hne⟩)
        · exact h.pseudo_not_mem hmem
        · exact hne heq.symm
        · exact hne heq.symm
      numbered := h.numbered.concat_map rfl
      states := by
        intro name hname
        change name ∈ declare (declare d.states source) target at hname
        rw [mem_declare, mem_declare] at hname
        rcases hname with (hmem | ⟨rfl, -⟩) | ⟨rfl, -⟩
        · exact h.states name hmem
        · exact hsource
        · exact htarget
      labels := forall_mem_concat h.labels (fun _ => id) hlabel }

theorem isTrimmed (h : d.IsWellFormed) :
  ∀ text ∈ d.texts, IsTrimmed text
  := by
  have hend : ∀ name, name = "*" ∨ name ∈ d.states → IsTrimmed name := by
    rintro name (rfl | hmem)
    · apply isTrim_singleton (c := '*') rfl
    · exact h.states name hmem
  intro text htext
  simp only [texts, List.mem_append, List.mem_flatMap, List.mem_cons, List.not_mem_nil, or_false]
    at htext
  rcases htext with hmem | ⟨t, ht, rfl | rfl | rfl⟩
  · apply h.states text hmem
  · apply hend _ (h.source_mem t ht)
  · apply hend _ (h.target_mem t ht)
  · apply h.labels t ht

end IsWellFormed

end StateDiagram

/-! ### Models -/

namespace Model

/-- The texts in the model. -/
def texts (m : Model) : List String :=
  m.useCase.texts ++ m.sequence.texts ++ m.classes.texts ++ m.state.texts

/-- The lists of ids in the model, each with its label. -/
def idLists (m : Model) : List (String × List String) :=
  [("usecase-association-", m.useCase.associations.map Association.id),
    ("sequence-message-", m.sequence.messages.map Message.id),
    ("activation-", m.sequence.activations.map Activation.id),
    ("seq-command-", m.sequence.commands.map SequenceCommand.id),
    ("class-relation-", m.classes.relations.map ClassRelation.id),
    ("state-transition-", m.state.transitions.map Transition.id)]

/-- The diagrams are well-formed, all texts are trimmed and all ids are distinct. -/
structure IsWellFormed (m : Model) : Prop where
  useCase : m.useCase.IsWellFormed
  sequence : m.sequence.IsWellFormed
  classes : m.classes.IsWellFormed
  state : m.state.IsWellFormed
  trimmed : ∀ text ∈ m.texts, IsTrimmed text
  distinct : (m.idLists.flatMap Prod.snd).Nodup

variable {m : Model}

/-- The ids of well-formed diagrams are distinct, since each list has a label of its own. -/
theorem nodup_idLists (huseCase : m.useCase.IsWellFormed) (hsequence : m.sequence.IsWellFormed)
    (hclasses : m.classes.IsWellFormed) (hstate : m.state.IsWellFormed) :
  (m.idLists.flatMap Prod.snd).Nodup
  := by
  have hnumbered : ∀ e ∈ m.idLists, IsNumbered e.1 e.2 := by
    intro e he
    simp only [idLists, List.mem_cons, List.not_mem_nil, or_false] at he
    rcases he with rfl | rfl | rfl | rfl | rfl | rfl
    · exact huseCase.numbered
    · exact hsequence.messages_numbered
    · exact hsequence.activations_numbered
    · exact hsequence.commands_numbered
    · exact hclasses.numbered
    · exact hstate.numbered
  apply IsNumbered.nodup_flatMap hnumbered 4
  · simp only [idLists, List.map_cons, List.map_nil]
    decide
  · simp only [idLists, List.map_cons, List.map_nil]
    decide

/-- A model is well-formed when its four diagrams are. -/
theorem isWellFormed_of_diagrams (huseCase : m.useCase.IsWellFormed)
    (hsequence : m.sequence.IsWellFormed) (hclasses : m.classes.IsWellFormed)
    (hstate : m.state.IsWellFormed) :
  m.IsWellFormed
  where
  useCase := huseCase
  sequence := hsequence
  classes := hclasses
  state := hstate
  trimmed := by
    intro text htext
    simp only [texts, List.mem_append] at htext
    rcases htext with ((hmem | hmem) | hmem) | hmem
    · apply huseCase.isTrimmed text hmem
    · apply hsequence.isTrimmed text hmem
    · apply hclasses.isTrimmed text hmem
    · apply hstate.isTrimmed text hmem
  distinct := nodup_idLists huseCase hsequence hclasses hstate

theorem isWellFormed_empty :
  empty.IsWellFormed
  := isWellFormed_of_diagrams UseCaseDiagram.isWellFormed_empty SequenceDiagram.isWellFormed_empty
    ClassDiagram.isWellFormed_empty StateDiagram.isWellFormed_empty

end Model

end DiagramLayout
