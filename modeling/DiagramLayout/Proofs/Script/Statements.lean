import DiagramLayout.Proofs.Script.Complaints
import DiagramLayout.Proofs.Script.Meaning

/-!
# The statements of a text

The lines of a text outside of classes say statements, whatever else stands between them. All names but
those of classes and all messages that are read from a text are those of its statements; the lines in the
body of a class add to classes only, and the end of the text adds activations only.
-/

namespace DiagramLayout

namespace Openness

variable {o : Openness} {line : List Char} {lines : List (List Char)} {s : Statement}

/-- What a line says: a statement when no class is open and a form reads it, and nothing otherwise. -/
def statement? (o : Openness) (line : List Char) : Option Statement :=
  if o.openClass = none then Statement.ofLine? (Script.normalize line) else none

/-- The statements that lines say. -/
def statements (o : Openness) : List (List Char) → List Statement
  | [] => []
  | line :: rest => (o.statement? line).toList ++ (o.after line).statements rest

/-- A line says a statement when no class is open and a form reads its normal form. -/
theorem statement?_eq_some_iff :
  o.statement? line = some s
    ↔ o.openClass = none ∧ Statement.ofLine? (Script.normalize line) = some s
  := by
  rw [statement?, Option.ite_none_right_eq_some]

/-- The statements of lines are those that each of them says, with what the lines in front of it leave
open. -/
theorem mem_statements_iff :
  s ∈ o.statements lines
    ↔ ∃ i line, lines[i]? = some line ∧ ((lines.take i).foldl after o).statement? line = some s
  := by
  induction lines generalizing o with
  | nil => simp [statements]
  | cons first rest ih =>
    rw [statements, List.mem_append, Option.mem_toList, ih]
    constructor
    · rintro (h | ⟨i, line, hline, h⟩)
      · exact ⟨0, first, rfl, h⟩
      · exact ⟨i + 1, line, hline, h⟩
    · rintro ⟨i, line, hline, h⟩
      cases i with
      | zero =>
        obtain rfl := Option.some.inj hline
        exact Or.inl h
      | succ i => exact Or.inr ⟨i, line, hline, h⟩

end Openness

namespace Script

/-- The statements that the lines of a text say. -/
def statements (text : String) : List Statement :=
  Openness.initial.statements (lines text.toList)

/-- The statement is read from a line of the text, of which the normal form is `line`, outside of
classes. -/
def Says (text : String) (line : List Char) (s : Statement) : Prop :=
  ∃ i raw, (lines text.toList)[i]? = some raw
    ∧ (Openness.behind ((lines text.toList).take i)).openClass = none ∧ line = normalize raw
    ∧ Statement.ofLine? line = some s

/-- The statements of a text are what its lines say. -/
theorem mem_statements_iff {text : String} {s : Statement} :
  s ∈ statements text ↔ ∃ line, Says text line s
  := by
  rw [statements, Openness.mem_statements_iff]
  constructor
  · rintro ⟨i, raw, hraw, h⟩
    obtain ⟨hopen, hline⟩ := Openness.statement?_eq_some_iff.mp h
    exact ⟨_, i, raw, hraw, hopen, rfl, hline⟩
  · rintro ⟨_, i, raw, hraw, hopen, rfl, hline⟩
    exact ⟨i, raw, hraw, Openness.statement?_eq_some_iff.mpr ⟨hopen, hline⟩⟩

end Script

/-! ### Readings of statements -/

namespace Reading

variable {r : Reading} {script : List Statement}

/-- Use cases, states, participants and messages are those of the script. -/
structure Tells (r : Reading) (script : List Statement) : Prop where
  useCase : r.model.useCase = .ofScript script
  state : r.model.state = .ofScript script
  participants : r.model.sequence.participants = .ofList (script.flatMap Statement.participants)
  messages : r.model.sequence.messages
    = numbered "sequence-message-" (script.filterMap Statement.toMessage?)

theorem tells_initial :
  initial.Tells []
  := ⟨rfl, rfl, rfl, rfl⟩

namespace Tells

/-- Ending an activation does not change what the script tells. -/
theorem deactivate (h : r.Tells script) (number : ℕ) (participant : String) :
  (r.deactivate number participant).Tells script
  := by
  rw [Reading.deactivate]
  split
  · exact ⟨h.useCase, h.state, h.participants, h.messages⟩
  · exact ⟨h.useCase, h.state, h.participants, h.messages⟩

/-- A statement behind a script adds its own names and its own message. -/
theorem perform (h : r.Tells script) (number : ℕ) (s : Statement) :
  (r.perform number s).Tells (script ++ [s])
  := by
  have huseCase := UseCaseDiagram.ofScript_concat script s
  have hstate := StateDiagram.ofScript_concat script s
  have hnames : NameSet.ofList ((script ++ [s]).flatMap Statement.participants)
      = s.participants.foldl .insert r.model.sequence.participants := by
    rw [List.flatMap_append, List.flatMap_singleton, NameSet.ofList_append, h.participants]
  have hsame : s.toMessage? = none → numbered "sequence-message-" ((script ++ [s]).filterMap
      Statement.toMessage?) = r.model.sequence.messages := by
    intro hnone
    rw [List.filterMap_append, List.filterMap_cons_none hnone, List.filterMap_nil, List.append_nil,
      h.messages]
  rw [← h.useCase] at huseCase
  rw [← h.state] at hstate
  cases s with
  | activation command participant =>
    have hgive : (r.adjustSequence (·.give command participant)).Tells
        (script ++ [.activation command participant]) :=
      ⟨huseCase.symm, hstate.symm, hnames.symm, (hsame rfl).symm⟩
    cases command with
    | activate => exact ⟨hgive.useCase, hgive.state, hgive.participants, hgive.messages⟩
    | deactivate => exact hgive.deactivate number participant
  | message sender receiver text isAsync =>
    refine ⟨huseCase.symm, hstate.symm, hnames.symm, ?_⟩
    have hmessage : [Statement.message sender receiver text isAsync].filterMap Statement.toMessage?
        = [fun id => ⟨id, sender, receiver, text, isAsync⟩] := rfl
    rw [List.filterMap_append, hmessage, numbered_concat, ← h.messages]
    rfl
  | _ => exact ⟨huseCase.symm, hstate.symm, hnames.symm, (hsame rfl).symm⟩

/-- A line in the body of a class changes nothing but this class. -/
theorem performBody (h : r.Tells script) (name : String) (line : BodyLine) :
  (r.performBody name line).Tells script
  := by
  cases line with
  | member text => exact ⟨h.useCase, h.state, h.participants, h.messages⟩
  | last text => exact ⟨h.useCase, h.state, h.participants, h.messages⟩

/-- A line tells the statement that it says, or nothing. -/
theorem step (h : r.Tells script) (number : ℕ) (line : List Char) :
  (r.step number line).Tells (script ++ (r.openness.statement? line).toList)
  := by
  by_cases hblank : Script.normalize line = []
  · have hnone : r.openness.statement? line = none := by
      rw [Openness.statement?, hblank]
      exact ite_self none
    rw [Reading.step, if_pos (List.isEmpty_iff.mpr hblank), hnone, Option.toList_none, List.append_nil]
    exact h
  rw [Reading.step, if_neg (List.isEmpty_iff.not.mpr hblank), readLine]
  cases hopen : r.openClass with
  | some name =>
    have hnone : r.openness.statement? line = none :=
      if_neg (hopen.trans_ne (Option.some_ne_none name))
    rw [hnone, Option.toList_none, List.append_nil]
    exact h.performBody name _
  | none =>
    have hline : r.openness.statement? line = Statement.ofLine? (Script.normalize line) := if_pos hopen
    rw [hline]
    cases Statement.ofLine? (Script.normalize line) with
    | some s => exact h.perform number s
    | none =>
      rw [Option.toList_none, List.append_nil]
      exact ⟨h.useCase, h.state, h.participants, h.messages⟩

/-- Lines tell the statements that they say, one after the other. -/
theorem readFrom (h : r.Tells script) (number : ℕ) (lines : List (List Char)) :
  (r.readFrom number lines).Tells (script ++ r.openness.statements lines)
  := by
  induction lines generalizing r script number with
  | nil =>
    rw [Openness.statements, List.append_nil]
    exact h
  | cons line rest ih =>
    rw [Openness.statements, ← (openness_step number line).1, ← List.append_assoc]
    exact ih (h.step number line) (number + 1)

/-- The end of a text adds activations only. -/
theorem finish (h : r.Tells script) :
  r.finish.Tells script
  := by
  rw [finish_eq, foldl_activateFrom]
  exact ⟨h.useCase, h.state, h.participants, h.messages⟩

end Tells

/-- The names and messages of a text are those of its statements. -/
theorem tells_ofText (text : String) :
  (ofText text).Tells (Script.statements text)
  := by
  have hread := tells_initial.readFrom 1 (Script.lines text.toList)
  rw [List.nil_append] at hread
  exact hread.finish

end Reading

end DiagramLayout
