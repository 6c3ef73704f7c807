import DiagramLayout.Proofs.Diagram.WellFormed
import DiagramLayout.Proofs.Script.Grammar
import DiagramLayout.Proofs.Script.Reading

/-!
# Scripts give well-formed models

The names and texts that a line gives are trimmed, and whoever is active is a participant. So every
line keeps the model well-formed, and so does the end of the script.
-/

namespace DiagramLayout

namespace Statement

/-- The texts that a statement puts into a model as they are; the members of a class are trimmed
first. -/
def texts : Statement → List String
  | inlineClass name _ => [name]
  | openClass name => [name]
  | relation _ left right => [left, right]
  | activation _ participant => [participant]
  | association actor useCase _ => [actor, useCase]
  | transition source target label _ => [source, target, label]
  | message sender receiver text _ => [sender, receiver, text]

/-- The texts of the statement are trimmed. -/
def IsTrimmed (s : Statement) : Prop :=
  ∀ text ∈ s.texts, DiagramLayout.IsTrimmed text

end Statement

/-! ### The forms of lines -/

namespace Script

variable {cs name rest : List Char} {statement : Statement}

/-- A class name has no blank in it. -/
theorem isTrimmed_of_className? (h : className? cs = some (name, rest)) :
  IsTrimmed (String.ofList name)
  := by
  obtain ⟨-, hname⟩ := eq_append_of_className? h
  rw [IsTrimmed, String.toList_ofList]
  apply isTrim_of_isNameChar hname

/-- The name of a class has no blanks around it. -/
theorem isTrimmed_of_classHead? (h : classHead? cs = some (name, rest)) :
  IsTrimmed (String.ofList name)
  := by
  simp only [classHead?, Option.bind_eq_bind, Option.bind_eq_some_iff] at h
  obtain ⟨start, -, h⟩ := h
  split_ifs at h
  · contradiction
  · obtain ⟨found, hfound, heq⟩ := Option.bind_eq_some_iff.mp h
    obtain ⟨rfl, -⟩ := Prod.mk.inj (Option.some.inj heq)
    apply isTrimmed_of_className? hfound

theorem isTrimmed_of_inlineClass? (h : inlineClass? cs = some statement) :
  statement.IsTrimmed
  := by
  simp only [inlineClass?, Option.bind_eq_bind, Option.bind_eq_some_iff, Option.pure_def,
    Option.some.injEq] at h
  obtain ⟨head, hhead, inside, -, body, -, rfl⟩ := h
  intro text htext
  obtain rfl := List.mem_singleton.mp htext
  apply isTrimmed_of_classHead? hhead

theorem isTrimmed_of_openClass? (h : openClass? cs = some statement) :
  statement.IsTrimmed
  := by
  simp only [openClass?, Option.bind_eq_bind, Option.bind_eq_some_iff] at h
  obtain ⟨head, hhead, h⟩ := h
  split_ifs at h
  obtain rfl := Option.some.inj h
  intro text htext
  obtain rfl := List.mem_singleton.mp htext
  apply isTrimmed_of_classHead? hhead

theorem isTrimmed_of_relation? (h : relation? cs = some statement) :
  statement.IsTrimmed
  := by
  simp only [relation?, Option.bind_eq_bind, Option.bind_eq_some_iff] at h
  obtain ⟨left, hleft, kind, -, right, hright, h⟩ := h
  split_ifs at h
  obtain rfl := Option.some.inj h
  intro text htext
  simp only [Statement.texts, List.mem_pair] at htext
  rcases htext with rfl | rfl
  · apply isTrimmed_of_className? hleft
  · apply isTrimmed_of_className? hright

theorem isTrimmed_of_activation? (h : activation? cs = some statement) :
  statement.IsTrimmed
  := by
  simp only [activation?, Option.bind_eq_bind, Option.bind_eq_some_iff] at h
  obtain ⟨command, -, h⟩ := h
  split at h
  · contradiction
  · contradiction
  · split_ifs at h
    obtain rfl := Option.some.inj h
    intro text htext
    obtain rfl := List.mem_singleton.mp htext
    apply isTrimmed_trimmed

theorem isTrimmed_of_association? (h : association? cs = some statement) :
  statement.IsTrimmed
  := by
  obtain ⟨found, -, rfl⟩ := Option.map_eq_some_iff.mp h
  intro text htext
  simp only [Statement.texts, List.mem_pair] at htext
  rcases htext with rfl | rfl
  all_goals apply isTrimmed_trimmed

theorem isTrimmed_of_transition? (h : transition? cs = some statement) :
  statement.IsTrimmed
  := by
  simp only [transition?, Option.bind_eq_bind, Option.bind_eq_some_iff, Option.pure_def,
    Option.some.injEq] at h
  obtain ⟨start, -, found, -, rfl⟩ := h
  intro text htext
  simp only [Statement.texts, List.mem_cons, List.not_mem_nil, or_false] at htext
  rcases htext with rfl | rfl | rfl
  all_goals apply isTrimmed_trimmed

theorem isTrimmed_of_message? (h : message? cs = some statement) :
  statement.IsTrimmed
  := by
  obtain ⟨found, -, rfl⟩ := Option.map_eq_some_iff.mp h
  intro text htext
  simp only [Statement.texts, List.mem_cons, List.not_mem_nil, or_false] at htext
  rcases htext with rfl | rfl | rfl
  all_goals apply isTrimmed_trimmed

end Script

/-- All texts of a statement that is read from a line are trimmed. -/
theorem Statement.isTrimmed_of_ofLine? {line : List Char} {s : Statement}
    (h : ofLine? line = some s) :
  s.IsTrimmed
  := by
  obtain ⟨form, hform, hs⟩ := List.exists_of_findSome?_eq_some h
  simp only [Script.forms, List.mem_cons, List.not_mem_nil, or_false] at hform
  rcases hform with rfl | rfl | rfl | rfl | rfl | rfl | rfl
  · exact Script.isTrimmed_of_inlineClass? hs
  · exact Script.isTrimmed_of_openClass? hs
  · exact Script.isTrimmed_of_relation? hs
  · exact Script.isTrimmed_of_activation? hs
  · exact Script.isTrimmed_of_association? hs
  · exact Script.isTrimmed_of_transition? hs
  · exact Script.isTrimmed_of_message? hs

namespace Reading

variable {r : Reading}

/-! ### Lines -/

/-- The model is well-formed, whoever is active is a participant, and the class that is open has a
trimmed name. -/
structure IsWellFormed (r : Reading) : Prop where
  model : r.model.IsWellFormed
  active : ∀ participant ∈ r.active.keys, participant ∈ r.model.sequence.participants
  openClass : ∀ name ∈ r.openClass, IsTrimmed name

theorem isWellFormed_initial :
  initial.IsWellFormed
  where
  model := Model.isWellFormed_empty
  active := nofun
  openClass := nofun

namespace IsWellFormed

/-- A complaint keeps a reading well-formed. -/
theorem complain (h : r.IsWellFormed) (c : Complaint) :
  (r.complain c).IsWellFormed
  :=
  { h with }

/-- Adjusting a class of a trimmed name keeps a reading well-formed, when the class keeps its
name. -/
theorem adjustClass (h : r.IsWellFormed) {name : String} (hname : IsTrimmed name)
    {update : ClassNode → ClassNode} (hkeep : ∀ c, (update c).name = c.name)
    (hupdate : ∀ c : ClassNode, c.IsWellFormed → (update c).IsWellFormed) :
  (r.adjustClass name update).IsWellFormed
  where
  model := Model.isWellFormed_of_diagrams h.model.useCase h.model.sequence
    (h.model.classes.adjust hname hkeep hupdate) h.model.state
  active := h.active
  openClass := h.openClass

/-- A change of the sequence diagram that loses no participant. -/
theorem adjustSequence (h : r.IsWellFormed) {update : SequenceDiagram → SequenceDiagram}
    (hupdate : (update r.model.sequence).IsWellFormed)
    (hkeep : ∀ name ∈ r.model.sequence.participants,
      name ∈ (update r.model.sequence).participants) :
  (r.adjustSequence update).IsWellFormed
  where
  model := Model.isWellFormed_of_diagrams h.model.useCase hupdate h.model.classes h.model.state
  active := fun participant hactive => hkeep participant (h.active participant hactive)
  openClass := h.openClass

/-- A message with trimmed texts keeps a reading well-formed. -/
theorem send (h : r.IsWellFormed) {sender receiver text : String} (hsender : IsTrimmed sender)
    (hreceiver : IsTrimmed receiver) (htext : IsTrimmed text) (isAsync : Bool) :
  (r.adjustSequence (·.send sender receiver text isAsync)).IsWellFormed
  := by
  apply h.adjustSequence (h.model.sequence.send hsender hreceiver htext isAsync)
  intro name hname
  apply NameSet.mem_insert_of_mem
  apply NameSet.mem_insert_of_mem hname

/-- A command for a trimmed name keeps a reading well-formed. -/
theorem give (h : r.IsWellFormed) (command : ActivationCommand) {participant : String}
    (hparticipant : IsTrimmed participant) :
  (r.adjustSequence (·.give command participant)).IsWellFormed
  := by
  apply h.adjustSequence (h.model.sequence.give command hparticipant)
  intro name hname
  apply NameSet.mem_insert_of_mem hname

/-- Beginning an activation of a declared participant keeps a reading well-formed. -/
theorem activate (h : r.IsWellFormed) {participant : String}
    (hmem : participant ∈ r.model.sequence.participants) :
  (r.activate participant).IsWellFormed
  where
  model := h.model
  active := by
    intro other hother
    rcases (Catalog.mem_keys_adjust _ _).mp hother with hother | rfl
    · apply h.active other hother
    · exact hmem
  openClass := h.openClass

/-- Ending an activation keeps a reading well-formed, also where there is none to end. -/
theorem deactivate (h : r.IsWellFormed) (number : ℕ) (participant : String) :
  (r.deactivate number participant).IsWellFormed
  := by
  rw [Reading.deactivate]
  split
  · rename_i start others hfind
    have hmem := h.active participant (Catalog.exists_find?_iff.mp ⟨_, hfind⟩)
    have hput : ({ r with active := r.active.put participant others } : Reading).IsWellFormed :=
      { h with
        active := by
          intro other hother
          rcases Catalog.mem_keys_put.mp hother with hother | rfl
          · apply h.active other hother
          · exact hmem }
    exact hput.adjustSequence (h.model.sequence.activateFrom hmem start) (fun _ => id)
  · apply h.complain

/-- A statement with trimmed texts keeps a reading well-formed. -/
theorem perform (h : r.IsWellFormed) (number : ℕ) {statement : Statement}
    (htexts : statement.IsTrimmed) :
  (r.perform number statement).IsWellFormed
  := by
  cases statement with
  | inlineClass name members =>
    have hname := htexts name List.mem_cons_self
    exact h.adjustClass hname (fun c => c.name_addMembers members)
      (fun c hc => hc.addMembers members)
  | openClass name =>
    have hname := htexts name List.mem_cons_self
    have hadjust : (r.adjustClass name id).IsWellFormed :=
      h.adjustClass hname (fun _ => rfl) (fun _ => id)
    exact
      { hadjust with
        openClass := by
          intro other hother
          obtain rfl := Option.mem_some_iff.mp hother
          exact hname }
  | relation kind left right =>
    have hleft := htexts left List.mem_cons_self
    have hright := htexts right (List.mem_cons_of_mem _ List.mem_cons_self)
    -- Both orders of the ends are needed: an inheritance is written from the parent to the heir.
    have hrelate : ∀ {source target}, IsTrimmed source → IsTrimmed target →
        ({ r with model := { r.model with
          classes := r.model.classes.relate kind source target } } : Reading).IsWellFormed :=
      fun hsource htarget =>
        { h with
          model := Model.isWellFormed_of_diagrams h.model.useCase h.model.sequence
            (h.model.classes.relate kind hsource htarget) h.model.state }
    rw [Reading.perform]
    split_ifs
    · exact hrelate hright hleft
    · exact hrelate hleft hright
  | activation command participant =>
    have hgive := h.give command (htexts participant List.mem_cons_self)
    cases command with
    | activate => exact hgive.activate (NameSet.mem_insert_self _ participant)
    | deactivate => exact hgive.deactivate number participant
  | association actor useCase isAsync =>
    have hactor := htexts actor List.mem_cons_self
    have huseCase := htexts useCase (List.mem_cons_of_mem _ List.mem_cons_self)
    exact
      { h with
        model := Model.isWellFormed_of_diagrams (h.model.useCase.associate hactor huseCase isAsync)
          h.model.sequence h.model.classes h.model.state }
  | transition source target label isAsync =>
    have hsource := htexts source List.mem_cons_self
    have htarget := htexts target (List.mem_cons_of_mem _ List.mem_cons_self)
    have hlabel := htexts label (List.mem_cons_of_mem _ (List.mem_cons_of_mem _ List.mem_cons_self))
    exact
      { h with
        model := Model.isWellFormed_of_diagrams h.model.useCase h.model.sequence h.model.classes
          (h.model.state.connect hsource htarget hlabel isAsync) }
  | message sender receiver text isAsync =>
    have hsender := htexts sender List.mem_cons_self
    have hreceiver := htexts receiver (List.mem_cons_of_mem _ List.mem_cons_self)
    have htext := htexts text (List.mem_cons_of_mem _ (List.mem_cons_of_mem _ List.mem_cons_self))
    exact h.send hsender hreceiver htext isAsync

/-- A line in the body of the open class keeps a reading well-formed. -/
theorem performBody (h : r.IsWellFormed) {name : String} (hopen : r.openClass = some name)
    (line : BodyLine) :
  (r.performBody name line).IsWellFormed
  := by
  have hname := h.openClass name hopen
  have hadd : ∀ text, (r.adjustClass name (·.addMember text)).IsWellFormed := fun text =>
    h.adjustClass hname (fun c => c.name_addMember text) (fun c hc => hc.addMember text)
  cases line with
  | member text => exact hadd text
  | last text => exact { hadd text with openClass := nofun }

end IsWellFormed

/-- Whatever lines are read, the reading is well-formed. -/
theorem isWellFormed_readFrom (number : ℕ) (lines : List (List Char)) :
  (initial.readFrom number lines).IsWellFormed
  := by
  apply readFrom_preserves number lines
  · intro r name line h hopen
    apply h.performBody hopen
  · intro r number line statement h _ hline
    apply h.perform number (Statement.isTrimmed_of_ofLine? hline)
  · intro r number text h
    apply h.complain
  · apply isWellFormed_initial

/-! ### The end of a script -/

/-- Ending activations of participants keeps the diagram well-formed. -/
theorem isWellFormed_foldl_activateFrom {d : SequenceDiagram} (h : d.IsWellFormed)
    {begun : List (String × ℕ)} (hmem : ∀ a ∈ begun, a.1 ∈ d.participants) :
  (begun.foldl (fun d a => d.activateFrom a.1 a.2) d).IsWellFormed
  := by
  induction begun generalizing d with
  | nil => exact h
  | cons a rest ih =>
    obtain ⟨ha, hrest⟩ := List.forall_mem_cons.mp hmem
    exact ih (h.activateFrom ha a.2) hrest

/-- Only declared participants have pending activations. -/
theorem IsWellFormed.pending_mem (h : r.IsWellFormed) :
  ∀ a ∈ r.pending, a.1 ∈ r.model.sequence.participants
  := by
  intro a ha
  obtain ⟨e, he, hmem⟩ := List.mem_flatMap.mp ha
  obtain ⟨start, -, rfl⟩ := List.mem_map.mp hmem
  apply h.active e.1 (List.mem_map_of_mem he)

/-- Finishing keeps a reading well-formed. -/
theorem IsWellFormed.finish (h : r.IsWellFormed) :
  r.finish.IsWellFormed
  := by
  rw [finish_eq]
  refine ⟨?_, nofun, nofun⟩
  apply Model.isWellFormed_of_diagrams
  · exact h.model.useCase
  · exact isWellFormed_foldl_activateFrom h.model.sequence h.pending_mem
  · exact h.model.classes
  · exact h.model.state

/-- The model of every text is well-formed. -/
theorem ofText_isWellFormed (text : String) :
  (ofText text).model.IsWellFormed
  := (isWellFormed_readFrom 1 (Script.lines text.toList)).finish.model

end Reading

end DiagramLayout
