import DiagramLayout.Proofs.Script.Complaints
import DiagramLayout.Proofs.Script.Line

/-!
# Texts that go on

A line adds to the diagrams behind what they have, and numbers what it adds by what is there; it takes
nothing away and changes nothing. The end of a text adds no more than the activations that are left open,
behind all others, and complaints that are about no line. So when a text goes on, the model of its
beginning is the beginning of its model.
-/

namespace DiagramLayout

/-! ### Beginnings of diagrams -/

/-- The second class has the members of the first one, and maybe others behind them. -/
structure ClassNode.IsStartOf (c d : ClassNode) : Prop where
  name : c.name = d.name
  attributes : c.attributes <+: d.attributes
  methods : c.methods <+: d.methods

/-- The second diagram has what the first one has, and maybe more behind it. -/
structure UseCaseDiagram.IsStartOf (d e : UseCaseDiagram) : Prop where
  actors : d.actors.toList <+: e.actors.toList
  useCases : d.useCases.toList <+: e.useCases.toList
  associations : d.associations <+: e.associations

/-- The second diagram has what the first one has, and maybe more behind it; nothing is said about the
activations. -/
structure SequenceDiagram.IsStartOf (d e : SequenceDiagram) : Prop where
  participants : d.participants.toList <+: e.participants.toList
  messages : d.messages <+: e.messages
  commands : d.commands <+: e.commands

/-- The second diagram has the classes of the first one, each with its members, and its relations, and
maybe more behind them. -/
structure ClassDiagram.IsStartOf (d e : ClassDiagram) : Prop where
  keys : d.classes.keys <+: e.classes.keys
  members : ∀ key c, d.classes.find? key = some c →
    ∃ c', e.classes.find? key = some c' ∧ c.IsStartOf c'
  relations : d.relations <+: e.relations

/-- The second diagram has what the first one has, and maybe more behind it. -/
structure StateDiagram.IsStartOf (d e : StateDiagram) : Prop where
  states : d.states.toList <+: e.states.toList
  transitions : d.transitions <+: e.transitions

/-- The diagrams of the first model are beginnings of those of the second. -/
structure Model.IsStartOf (m n : Model) : Prop where
  useCase : m.useCase.IsStartOf n.useCase
  sequence : m.sequence.IsStartOf n.sequence
  classes : m.classes.IsStartOf n.classes
  state : m.state.IsStartOf n.state

namespace NameSet

/-- Inserting a name keeps the names before it in their places. -/
theorem prefix_insert (s : NameSet) (name : String) :
  s.toList <+: (s.insert name).toList
  := by
  rw [toList_insert]
  split_ifs
  · exact List.prefix_rfl
  · exact List.prefix_append _ _

end NameSet

namespace Catalog

variable {α : Type}

/-- Putting a value keeps the keys before it in their places. -/
theorem keys_prefix_put (c : Catalog α) (key : String) (value : α) :
  c.keys <+: (c.put key value).keys
  := by
  rw [keys_put]
  split_ifs
  · exact List.prefix_rfl
  · exact List.prefix_append _ _

end Catalog

namespace ClassNode

variable {c d e : ClassNode}

theorem IsStartOf.refl (c : ClassNode) :
  c.IsStartOf c
  := ⟨rfl, List.prefix_rfl, List.prefix_rfl⟩

/-- The start of a start is a start. -/
theorem IsStartOf.trans (h : c.IsStartOf d) (h' : d.IsStartOf e) :
  c.IsStartOf e
  := ⟨h.name.trans h'.name, h.attributes.trans h'.attributes, h.methods.trans h'.methods⟩

/-- A member is added behind those that the class has. -/
theorem isStartOf_addMember (c : ClassNode) (text : List Char) :
  c.IsStartOf (c.addMember text)
  := by
  rw [addMember]
  split_ifs
  · exact .refl c
  · exact ⟨rfl, List.prefix_rfl, List.prefix_append _ _⟩
  · exact ⟨rfl, List.prefix_append _ _, List.prefix_rfl⟩

/-- Members are added behind those that the class has. -/
theorem isStartOf_addMembers (c : ClassNode) (texts : List (List Char)) :
  c.IsStartOf (c.addMembers texts)
  := by
  rw [addMembers]
  apply List.foldlRecOn texts addMember (IsStartOf.refl c)
  intro d h text _
  exact h.trans (isStartOf_addMember d text)

end ClassNode

namespace ClassDiagram

variable {d e f : ClassDiagram}

theorem IsStartOf.refl (d : ClassDiagram) :
  d.IsStartOf d
  := ⟨List.prefix_rfl, fun _ c hc => ⟨c, hc, .refl c⟩, List.prefix_rfl⟩

theorem IsStartOf.trans (h : d.IsStartOf e) (h' : e.IsStartOf f) :
  d.IsStartOf f
  := by
  refine ⟨h.keys.trans h'.keys, ?_, h.relations.trans h'.relations⟩
  intro key c hc
  obtain ⟨c', hc', hstart⟩ := h.members key c hc
  obtain ⟨c'', hc'', hstart'⟩ := h'.members key c' hc'
  exact ⟨c'', hc'', hstart.trans hstart'⟩

/-- Adjusting a class continues the diagram, when it continues the class. -/
theorem isStartOf_adjust (d : ClassDiagram) (name : String) {update : ClassNode → ClassNode}
    (h : ∀ c : ClassNode, c.IsStartOf (update c)) :
  d.IsStartOf (d.adjust name update)
  := by
  refine ⟨Catalog.keys_prefix_put .., ?_, List.prefix_rfl⟩
  intro key c hc
  rw [adjust, Catalog.find?_adjust]
  by_cases hkey : key = name
  · refine ⟨_, if_pos hkey, ?_⟩
    rw [← hkey, hc]
    exact h c
  · exact ⟨c, (if_neg hkey).trans hc, .refl c⟩

/-- A relation continues the diagram. -/
theorem isStartOf_relate (d : ClassDiagram) (kind : RelationKind) (source target : String) :
  d.IsStartOf (d.relate kind source target)
  := by
  have hknown : d.IsStartOf ((d.ensure source).ensure target) :=
    (d.isStartOf_adjust source .refl).trans (isStartOf_adjust _ target .refl)
  exact ⟨hknown.keys, hknown.members, hknown.relations.trans (List.prefix_append _ _)⟩

end ClassDiagram

/-- A transition continues the diagram. -/
theorem StateDiagram.isStartOf_connect (d : StateDiagram) (source target label : String)
    (isAsync : Bool) :
  d.IsStartOf (d.connect source target label isAsync)
  := by
  have hdeclare : ∀ (states : NameSet) (name : String),
      states.toList <+: (declare states name).toList := by
    intro states name
    rw [declare]
    split_ifs
    · exact List.prefix_rfl
    · exact states.prefix_insert name
  exact ⟨(hdeclare d.states source).trans (hdeclare _ target), List.prefix_append _ _⟩

namespace Model

variable {m n o : Model}

theorem IsStartOf.refl (m : Model) :
  m.IsStartOf m
  := ⟨⟨List.prefix_rfl, List.prefix_rfl, List.prefix_rfl⟩,
    ⟨List.prefix_rfl, List.prefix_rfl, List.prefix_rfl⟩, .refl _, ⟨List.prefix_rfl, List.prefix_rfl⟩⟩

/-- A model is continued when its sequence diagram is and the other diagrams stay. -/
theorem isStartOf_of_sequence (h : m.sequence.IsStartOf n.sequence) (huseCase : m.useCase = n.useCase)
    (hclasses : m.classes = n.classes) (hstate : m.state = n.state) :
  m.IsStartOf n
  where
  useCase := huseCase ▸ (IsStartOf.refl m).useCase
  sequence := h
  classes := hclasses ▸ .refl m.classes
  state := hstate ▸ (IsStartOf.refl m).state

theorem IsStartOf.trans (h : m.IsStartOf n) (h' : n.IsStartOf o) :
  m.IsStartOf o
  where
  useCase := ⟨h.useCase.actors.trans h'.useCase.actors, h.useCase.useCases.trans h'.useCase.useCases,
    h.useCase.associations.trans h'.useCase.associations⟩
  sequence := ⟨h.sequence.participants.trans h'.sequence.participants,
    h.sequence.messages.trans h'.sequence.messages, h.sequence.commands.trans h'.sequence.commands⟩
  classes := h.classes.trans h'.classes
  state := ⟨h.state.states.trans h'.state.states, h.state.transitions.trans h'.state.transitions⟩

end Model

namespace Reading

variable {r s t : Reading}

/-! ### Lines add to a reading -/

/-- What is read first stays at the beginning of what is read, while a text goes on. -/
structure IsStartOf (r s : Reading) : Prop where
  model : r.model.IsStartOf s.model
  activations : r.model.sequence.activations <+: s.model.sequence.activations
  complaints : r.complaints <+: s.complaints

theorem IsStartOf.refl (r : Reading) :
  r.IsStartOf r
  := ⟨.refl r.model, List.prefix_rfl, List.prefix_rfl⟩

theorem IsStartOf.trans (h : r.IsStartOf s) (h' : s.IsStartOf t) :
  r.IsStartOf t
  := ⟨h.model.trans h'.model, h.activations.trans h'.activations, h.complaints.trans h'.complaints⟩

/-- A complaint continues a reading. -/
theorem isStartOf_complain (r : Reading) (c : Complaint) :
  r.IsStartOf (r.complain c)
  := ⟨.refl r.model, List.prefix_rfl, List.prefix_append _ _⟩

/-- Adjusting a class continues a reading, when it continues the class. -/
theorem isStartOf_adjustClass (r : Reading) (name : String) {update : ClassNode → ClassNode}
    (h : ∀ c : ClassNode, c.IsStartOf (update c)) :
  r.IsStartOf (r.adjustClass name update)
  where
  model := { Model.IsStartOf.refl r.model with
    classes := r.model.classes.isStartOf_adjust name h }
  activations := List.prefix_rfl
  complaints := List.prefix_rfl

/-- Adjusting the sequence diagram continues a reading, when it continues the diagram and its
activations. -/
theorem isStartOf_adjustSequence (r : Reading) {update : SequenceDiagram → SequenceDiagram}
    (h : r.model.sequence.IsStartOf (update r.model.sequence))
    (h' : r.model.sequence.activations <+: (update r.model.sequence).activations) :
  r.IsStartOf (r.adjustSequence update)
  where
  model := Model.isStartOf_of_sequence h rfl rfl rfl
  activations := h'
  complaints := List.prefix_rfl

/-- Ending an activation continues a reading: it is listed behind those that ended before. -/
theorem isStartOf_deactivate (r : Reading) (number : ℕ) (participant : String) :
  r.IsStartOf (r.deactivate number participant)
  := by
  rw [deactivate]
  split
  · refine ⟨Model.isStartOf_of_sequence ?_ rfl rfl rfl, List.prefix_append _ _, List.prefix_rfl⟩
    exact ⟨List.prefix_rfl, List.prefix_rfl, List.prefix_rfl⟩
  · apply isStartOf_complain

/-- Whatever a statement does, it continues the reading. -/
theorem isStartOf_perform (r : Reading) (number : ℕ) (statement : Statement) :
  r.IsStartOf (r.perform number statement)
  := by
  cases statement with
  | inlineClass name members =>
    exact r.isStartOf_adjustClass name fun c => c.isStartOf_addMembers members
  | openClass name =>
    have hadjust := r.isStartOf_adjustClass name ClassNode.IsStartOf.refl
    exact ⟨hadjust.model, hadjust.activations, hadjust.complaints⟩
  | relation kind left right =>
    refine ⟨?_, List.prefix_rfl, List.prefix_rfl⟩
    exact { Model.IsStartOf.refl r.model with classes := r.model.classes.isStartOf_relate kind _ _ }
  | activation command participant =>
    have hgive : r.IsStartOf (r.adjustSequence (·.give command participant)) := by
      apply isStartOf_adjustSequence
      · exact ⟨NameSet.prefix_insert _ _, List.prefix_rfl, List.prefix_append _ _⟩
      · exact List.prefix_rfl
    cases command with
    | activate => exact ⟨hgive.model, hgive.activations, hgive.complaints⟩
    | deactivate => exact hgive.trans (isStartOf_deactivate _ number participant)
  | association actor useCase isAsync =>
    refine ⟨?_, List.prefix_rfl, List.prefix_rfl⟩
    exact { Model.IsStartOf.refl r.model with
      useCase := ⟨NameSet.prefix_insert _ _, NameSet.prefix_insert _ _, List.prefix_append _ _⟩ }
  | transition source target label isAsync =>
    refine ⟨?_, List.prefix_rfl, List.prefix_rfl⟩
    exact { Model.IsStartOf.refl r.model with
      state := r.model.state.isStartOf_connect source target label isAsync }
  | message sender receiver text isAsync =>
    change r.IsStartOf (r.adjustSequence (·.send sender receiver text isAsync))
    apply isStartOf_adjustSequence
    · exact ⟨(NameSet.prefix_insert _ _).trans (NameSet.prefix_insert _ _), List.prefix_append _ _,
        List.prefix_rfl⟩
    · exact List.prefix_rfl

/-- Whatever a line of a class body does, it continues the reading. -/
theorem isStartOf_performBody (r : Reading) (name : String) (line : BodyLine) :
  r.IsStartOf (r.performBody name line)
  := by
  cases line with
  | member text => exact r.isStartOf_adjustClass name fun c => c.isStartOf_addMember text
  | last text =>
    have hadjust := r.isStartOf_adjustClass name fun c => c.isStartOf_addMember text
    exact ⟨hadjust.model, hadjust.activations, hadjust.complaints⟩

/-- Reading more lines continues a reading. -/
theorem isStartOf_readFrom (r : Reading) (number : ℕ) (lines : List (List Char)) :
  r.IsStartOf (r.readFrom number lines)
  := by
  apply readFrom_preserves number lines (P := r.IsStartOf)
  · intro s name line h _
    exact h.trans (s.isStartOf_performBody name line)
  · intro s number _ statement h _ _
    exact h.trans (s.isStartOf_perform number statement)
  · intro s number text h
    exact h.trans (s.isStartOf_complain _)
  · exact .refl r

/-! ### The end of a text adds activations and complaints -/

/-- The activations that a command has ended: all but the last ones, as many as are complained about as
lasting to the end. -/
def ended (r : Reading) : List Activation :=
  r.model.sequence.activations.rdrop (r.complaints.filterMap Complaint.lasting?).length

/-- The complaints that are about a line. -/
def located (r : Reading) : List Complaint :=
  r.complaints.filter fun c => c.line?.isSome

/-- All complaints that arise while lines are read are about a line. -/
theorem located_readFrom (number : ℕ) (lines : List (List Char)) :
  (initial.readFrom number lines).located = (initial.readFrom number lines).complaints
  := by
  rw [located, List.filter_eq_self]
  have hcomplain : ∀ (r : Reading) (c : Complaint), c.line?.isSome = true →
      (∀ d ∈ r.complaints, d.line?.isSome = true) →
      ∀ d ∈ (r.complain c).complaints, d.line?.isSome = true := by
    intro r c hc h d hd
    rcases List.mem_append.mp hd with hd | hd
    · exact h d hd
    · rw [List.mem_singleton.mp hd]
      exact hc
  apply readFrom_preserves number lines (P := fun r => ∀ c ∈ r.complaints, c.line?.isSome = true)
  · intro r name line h _
    cases line with
    | member text => exact h
    | last text => exact h
  · intro r number line statement h _ _
    cases statement with
    | activation command participant =>
      cases command with
      | activate => exact h
      | deactivate =>
        dsimp only [perform, deactivate]
        split
        · exact h
        · exact hcomplain _ _ rfl h
    | _ => exact h
  · intro r number text h
    exact hcomplain r _ rfl h
  · nofun

/-- Complaints about lines are not about activations that last to the end. -/
theorem lasting_of_located (h : r.located = r.complaints) :
  r.complaints.filterMap Complaint.lasting? = []
  := by
  rw [List.filterMap_eq_nil_iff]
  intro c hc
  have hline := List.filter_eq_self.mp h c hc
  cases c with
  | neverDeactivated participant moment => contradiction
  | _ => rfl

/-- Finishing a reading changes nothing of its model except the activations. -/
theorem isStartOf_model_finish (r : Reading) :
  r.model.IsStartOf r.finish.model ∧ r.finish.model.IsStartOf r.model
  := by
  rw [finish_eq, foldl_activateFrom]
  refine ⟨Model.isStartOf_of_sequence ?_ rfl rfl rfl, Model.isStartOf_of_sequence ?_ rfl rfl rfl⟩
  · exact ⟨List.prefix_rfl, List.prefix_rfl, List.prefix_rfl⟩
  · exact ⟨List.prefix_rfl, List.prefix_rfl, List.prefix_rfl⟩

/-- The activations that are ended at the end of a text are those that are complained about. -/
theorem ended_finish (h : r.located = r.complaints) :
  r.finish.ended = r.model.sequence.activations
  := by
  have hlasting : (r.finish.complaints.filterMap Complaint.lasting?).length = r.pending.length := by
    rw [finish_eq, List.filterMap_append, List.filterMap_append, lasting_of_located h,
      List.filterMap_map, List.filterMap_map]
    simp [Function.comp_def, Complaint.lasting?]
  rw [ended, hlasting, finish_eq, foldl_activateFrom, List.rdrop, List.length_append,
    List.length_mapIdx, Nat.add_sub_cancel, List.take_left]

/-- What is complained about at the end of a text is about no line. -/
theorem located_finish (h : r.located = r.complaints) :
  r.finish.located = r.complaints
  := by
  have hunclosed : (r.openClass.toList.map Complaint.unclosedClass).filter
      (fun c => c.line?.isSome) = [] := by
    rw [List.filter_map, List.map_eq_nil_iff, List.filter_eq_nil_iff]
    exact fun _ _ => Bool.false_ne_true
  have hlasting : (r.pending.map fun a =>
      Complaint.neverDeactivated a.1 r.model.sequence.moment).filter (fun c => c.line?.isSome) = [] := by
    rw [List.filter_map, List.map_eq_nil_iff, List.filter_eq_nil_iff]
    exact fun _ _ => Bool.false_ne_true
  rw [located, finish_eq, List.filter_append, List.filter_append, hunclosed, hlasting, List.append_nil,
    List.append_nil]
  exact h

/-- When a text goes on in new lines, all that its beginning says stays, in its place and with its id: the
model of the beginning, the activations that a command has ended and the complaints about lines. -/
theorem ofText_isStartOf (front back : String) :
  let start := ofText front
  let whole := ofText (front ++ "\n" ++ back)
  start.model.IsStartOf whole.model ∧ start.ended <+: whole.ended ∧ start.located <+: whole.located
  := by
  have hlines : Script.lines (front ++ "\n" ++ back).toList
      = Script.lines front.toList ++ Script.lines back.toList := by
    rw [String.toList_append, String.toList_append, List.append_assoc]
    exact Script.lines_append front.toList back.toList
  have hfront := located_readFrom 1 (Script.lines front.toList)
  have hwhole := located_readFrom 1 (Script.lines front.toList ++ Script.lines back.toList)
  have hstart := isStartOf_readFrom (initial.readFrom 1 (Script.lines front.toList))
    (1 + (Script.lines front.toList).length) (Script.lines back.toList)
  rw [← readFrom_append] at hstart
  intro start whole
  simp only [start, whole, ofText, hlines]
  refine ⟨?_, ?_, ?_⟩
  · exact ((isStartOf_model_finish _).2.trans hstart.model).trans (isStartOf_model_finish _).1
  · rw [ended_finish hfront, ended_finish hwhole]
    exact hstart.activations
  · rw [located_finish hfront, located_finish hwhole]
    exact hstart.complaints

/-- An activation that is left open is ended for now, and goes on when the text does. -/
example :
  let start := ofText "activate A\nactivate A\nA -> B: one\ndeactivate A"
  let whole := ofText "activate A\nactivate A\nA -> B: one\ndeactivate A\nB -> A: two\ndeactivate A"
  start.ended = [⟨"activation-1", "A", 0, 1⟩]
    ∧ start.model.sequence.activations = [⟨"activation-1", "A", 0, 1⟩, ⟨"activation-2", "A", 0, 1⟩]
    ∧ whole.ended = [⟨"activation-1", "A", 0, 1⟩, ⟨"activation-2", "A", 0, 2⟩]
  := by
  decide +kernel

end Reading

end DiagramLayout
