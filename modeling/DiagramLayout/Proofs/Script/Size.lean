import DiagramLayout.Proofs.Catalog
import DiagramLayout.Proofs.Script.Line
import DiagramLayout.Proofs.Script.Reading

/-!
# The size of what is read

A line names at most one actor and one use case, and at most two participants, states or classes. So
the diagrams that are read from a script are not larger than its lines allow.
-/

namespace DiagramLayout

/-- A line feed ends a line, and the last line has none. -/
theorem Script.length_lines (cs : List Char) :
  (lines cs).length = cs.count '\n' + 1
  := by
  induction cs with
  | nil => rfl
  | cons c rest ih =>
    by_cases hc : c = '\n'
    · rw [hc, lines, List.length_cons, ih, List.count_cons_self]
    · obtain ⟨first, others, hrest, hlines⟩ := exists_lines_cons hc rest
      rw [hrest, List.length_cons] at ih
      rw [hlines, List.length_cons, ih, List.count_cons_of_ne hc]

/-! ### Adding names -/

/-- An insertion adds at most one name. -/
theorem NameSet.size_insert_le (s : NameSet) (name : String) :
  (s.insert name).size ≤ s.size + 1
  := by
  rw [size, size, toList_insert]
  split_ifs
  · apply Nat.le_succ
  · apply Nat.le_of_eq
    rw [List.length_append, List.length_singleton]

/-- A declaration adds at most one state. -/
theorem StateDiagram.size_declare_le (states : NameSet) (name : String) :
  (declare states name).size ≤ states.size + 1
  := by
  rw [declare]
  split_ifs
  · apply Nat.le_succ
  · apply NameSet.size_insert_le

/-- An adjustment adds at most one key. -/
theorem Catalog.size_adjust_le {α : Type} (c : Catalog α) (key : String) (default : α)
    (update : α → α) :
  (c.adjust key default update).size ≤ c.size + 1
  := by
  rw [adjust, size_put]
  split_ifs
  · apply Nat.le_succ
  · apply Nat.le_refl

theorem ClassDiagram.size_adjust_le (d : ClassDiagram) (name : String)
    (update : ClassNode → ClassNode) :
  (d.adjust name update).classes.size ≤ d.classes.size + 1
  := d.classes.size_adjust_le name _ update

/-! ### Lines -/

/-- One line can lead from the first model to the second, as far as the numbers of names and of
relations, transitions and messages show. -/
structure Model.GrowsTo (m m' : Model) : Prop where
  actors : m'.useCase.actors.size ≤ m.useCase.actors.size + 1
  useCases : m'.useCase.useCases.size ≤ m.useCase.useCases.size + 1
  participants : m'.sequence.participants.size ≤ m.sequence.participants.size + 2
  classes : m'.classes.classes.size ≤ m.classes.classes.size + 2
  states : m'.state.states.size ≤ m.state.states.size + 2
  relations : m'.classes.relations.length ≤ m.classes.relations.length + 1
  transitions : m'.state.transitions.length ≤ m.state.transitions.length + 1
  messages : m'.sequence.messages.length ≤ m.sequence.messages.length + 1

theorem Model.GrowsTo.refl (m : Model) :
  m.GrowsTo m
  := ⟨Nat.le_succ _, Nat.le_succ _, Nat.le_add_right _ 2, Nat.le_add_right _ 2, Nat.le_add_right _ 2,
    Nat.le_succ _, Nat.le_succ _, Nat.le_succ _⟩

/-- The diagrams of the model name no more than `n` lines can, and have no more relations, transitions
and messages. -/
structure Model.HasAtMost (m : Model) (n : ℕ) : Prop where
  actors : m.useCase.actors.size ≤ n
  useCases : m.useCase.useCases.size ≤ n
  participants : m.sequence.participants.size ≤ 2 * n
  classes : m.classes.classes.size ≤ 2 * n
  states : m.state.states.size ≤ 2 * n
  relations : m.classes.relations.length ≤ n
  transitions : m.state.transitions.length ≤ n
  messages : m.sequence.messages.length ≤ n

/-- A model that grows has at most one more of everything. -/
theorem Model.HasAtMost.grow {m m' : Model} {n : ℕ} (h : m.HasAtMost n) (hgrow : m.GrowsTo m') :
  m'.HasAtMost (n + 1)
  := by
  constructor
  case actors => exact Nat.le_trans hgrow.actors (Nat.succ_le_succ h.actors)
  case useCases => exact Nat.le_trans hgrow.useCases (Nat.succ_le_succ h.useCases)
  case participants => exact Nat.le_trans hgrow.participants (Nat.add_le_add_right h.participants 2)
  case classes => exact Nat.le_trans hgrow.classes (Nat.add_le_add_right h.classes 2)
  case states => exact Nat.le_trans hgrow.states (Nat.add_le_add_right h.states 2)
  case relations => exact Nat.le_trans hgrow.relations (Nat.succ_le_succ h.relations)
  case transitions => exact Nat.le_trans hgrow.transitions (Nat.succ_le_succ h.transitions)
  case messages => exact Nat.le_trans hgrow.messages (Nat.succ_le_succ h.messages)

namespace Reading

variable {r : Reading} {n : ℕ}

/-- Adjusting a class is growth by one line. -/
theorem growsTo_adjustClass (r : Reading) (name : String) (update : ClassNode → ClassNode) :
  r.model.GrowsTo (r.adjustClass name update).model
  := { Model.GrowsTo.refl r.model with
    classes := Nat.le_succ_of_le (r.model.classes.size_adjust_le name update) }

/-- A statement is growth by one line. -/
theorem growsTo_perform (r : Reading) (line : ℕ) (statement : Statement) :
  r.model.GrowsTo (r.perform line statement).model
  := by
  cases statement with
  | inlineClass name members => apply growsTo_adjustClass
  | openClass name => apply growsTo_adjustClass
  | relation kind left right =>
    have hrelate : ∀ source target,
        (r.model.classes.relate kind source target).classes.size ≤ r.model.classes.classes.size + 2 := by
      intro source target
      have hsource := r.model.classes.size_adjust_le source id
      have htarget := (r.model.classes.ensure source).size_adjust_le target id
      exact Nat.le_trans htarget (Nat.succ_le_succ hsource)
    exact { Model.GrowsTo.refl r.model with
      classes := hrelate _ _
      relations := Nat.le_of_eq List.length_append }
  | activation command participant =>
    have hgive := Nat.le_succ_of_le (r.model.sequence.participants.size_insert_le participant)
    cases command with
    | activate => exact { Model.GrowsTo.refl r.model with participants := hgive }
    | deactivate =>
      rw [perform, deactivate]
      split
      · exact { Model.GrowsTo.refl r.model with participants := hgive }
      · exact { Model.GrowsTo.refl r.model with participants := hgive }
  | association actor useCase isAsync =>
    exact { Model.GrowsTo.refl r.model with
      actors := NameSet.size_insert_le _ actor
      useCases := NameSet.size_insert_le _ useCase }
  | transition source target label isAsync =>
    have hsource := StateDiagram.size_declare_le r.model.state.states source
    have htarget := StateDiagram.size_declare_le
      (StateDiagram.declare r.model.state.states source) target
    exact { Model.GrowsTo.refl r.model with
      states := Nat.le_trans htarget (Nat.succ_le_succ hsource)
      transitions := Nat.le_of_eq List.length_append }
  | message sender receiver text isAsync =>
    have hsender := r.model.sequence.participants.size_insert_le sender
    have hreceiver := (r.model.sequence.participants.insert sender).size_insert_le receiver
    exact { Model.GrowsTo.refl r.model with
      participants := Nat.le_trans hreceiver (Nat.succ_le_succ hsender)
      messages := Nat.le_of_eq List.length_append }

/-- A line is growth by one line, whatever it says. -/
theorem growsTo_step (r : Reading) (number : ℕ) (line : List Char) :
  r.model.GrowsTo (r.step number line).model
  := by
  apply step_cases (P := fun s => r.model.GrowsTo s.model)
  · apply Model.GrowsTo.refl
  · intro name _
    cases BodyLine.ofLine (Script.normalize line) with
    | member text => apply growsTo_adjustClass
    | last text => apply growsTo_adjustClass
  · intro statement _ _
    apply growsTo_perform
  · intro _ _
    apply Model.GrowsTo.refl

/-! ### Scripts -/

/-- What a model has is bounded by the lines that are read. -/
theorem hasAtMost_readFrom (h : r.model.HasAtMost n) (number : ℕ) (lines : List (List Char)) :
  (r.readFrom number lines).model.HasAtMost (n + lines.length)
  := by
  induction lines generalizing r n number with
  | nil => exact h
  | cons line rest ih =>
    have hrest := ih (h.grow (growsTo_step r number line)) (number + 1)
    rw [Nat.add_right_comm] at hrest
    exact hrest

/-- What is closed at the end of a script adds no names. -/
theorem hasAtMost_finish (h : r.model.HasAtMost n) :
  r.finish.model.HasAtMost n
  := by
  rw [finish_eq, foldl_activateFrom]
  exact ⟨h.actors, h.useCases, h.participants, h.classes, h.states, h.relations, h.transitions,
    h.messages⟩

/-- The diagrams that are read from a text name no more than its lines can. -/
theorem hasAtMost_ofText (text : String) :
  (ofText text).model.HasAtMost (text.toList.count '\n' + 1)
  := by
  rw [← Script.length_lines, ofText]
  apply hasAtMost_finish
  have hinitial : initial.model.HasAtMost 0 :=
    ⟨Nat.le_refl 0, Nat.le_refl 0, Nat.le_refl 0, Nat.le_refl 0, Nat.le_refl 0, Nat.le_refl 0,
      Nat.le_refl 0, Nat.le_refl 0⟩
  have hlines := hasAtMost_readFrom hinitial 1 (Script.lines text.toList)
  rw [Nat.zero_add] at hlines
  exact hlines

end Reading

end DiagramLayout
