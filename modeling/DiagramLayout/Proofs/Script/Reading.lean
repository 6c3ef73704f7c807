import DiagramLayout.Script.Reading
import Mathlib.Data.List.Basic

/-!
# Steps and ends of readings

A line changes a reading in one of three ways: by a statement, as a part of the class that is open, or
by a complaint. What all three preserve is preserved by the lines of a script. At the end of a script,
the activations that are still open are ended participant by participant.
-/

namespace DiagramLayout

namespace Reading

variable {r : Reading} {P : Reading → Prop}

/-! ### Lines -/

/-- What a line does: nothing, what a body line does to the class that is open, what a statement does
while none is open, or a complaint. -/
theorem step_cases (number : ℕ) (line : List Char) (hblank : P r)
    (hbody : ∀ name, r.openClass = some name →
      P (r.performBody name (.ofLine (Script.normalize line))))
    (hstatement : ∀ statement, r.openClass = none →
      Statement.ofLine? (Script.normalize line) = some statement → P (r.perform number statement))
    (hunreadable : r.openClass = none → Statement.ofLine? (Script.normalize line) = none →
      P (r.complain (.unreadable number (String.ofList (Script.normalize line))))) :
  P (r.step number line)
  := by
  rw [step]
  split_ifs with hempty
  · exact hblank
  · rw [readLine]
    cases hopen : r.openClass with
    | some name => apply hbody name hopen
    | none =>
      cases hline : Statement.ofLine? (Script.normalize line) with
      | some statement => apply hstatement statement hopen hline
      | none => apply hunreadable hopen hline

/-- What body lines, statements and complaints preserve is preserved by the lines of a script. -/
theorem readFrom_preserves (number : ℕ) (lines : List (List Char))
    (hbody : ∀ r name line, P r → r.openClass = some name → P (r.performBody name line))
    (hstatement : ∀ r number line statement, P r → r.openClass = none →
      Statement.ofLine? line = some statement → P (r.perform number statement))
    (hunreadable : ∀ r number text, P r → P (r.complain (.unreadable number text))) (h : P r) :
  P (r.readFrom number lines)
  := by
  induction lines generalizing r number with
  | nil => exact h
  | cons line rest ih =>
    apply ih
    apply step_cases number line h
    · intro name hopen
      apply hbody r name _ h hopen
    · intro statement hopen hline
      apply hstatement r number _ statement h hopen hline
    · intro _ _
      apply hunreadable r number _ h

/-- The lines of two parts of a script are read one part after the other. -/
theorem readFrom_append (r : Reading) (number : ℕ) (front back : List (List Char)) :
  r.readFrom number (front ++ back)
    = (r.readFrom number front).readFrom (number + front.length) back
  := by
  induction front generalizing r number with
  | nil => rfl
  | cons line rest ih =>
    rw [List.cons_append, readFrom, ih, readFrom, List.length_cons]
    congr 1
    omega

/-! ### The end of a script -/

/-- The activations that are open, participant by participant, the one that began first in front. -/
def pending (r : Reading) : List (String × ℕ) :=
  r.active.entries.flatMap fun e => e.2.reverse.map (Prod.mk e.1)

/-- Ending activations of a diagram one after another adds them all, numbered on. -/
theorem foldl_activateFrom (d : SequenceDiagram) (begun : List (String × ℕ)) :
  begun.foldl (fun d a => d.activateFrom a.1 a.2) d =
    { d with activations := d.activations ++ begun.mapIdx fun i a =>
        ⟨"activation-" ++ toString (d.activations.length + i + 1), a.1, a.2, d.moment⟩ }
  := by
  induction begun generalizing d with
  | nil =>
    rw [List.mapIdx_nil, List.append_nil]
    rfl
  | cons a rest ih =>
    rw [List.foldl_cons, ih, SequenceDiagram.activateFrom, List.mapIdx_cons]
    simp only [List.append_assoc, List.singleton_append, List.length_append, List.length_singleton,
      SequenceDiagram.moment]
    congr 4
    funext i b
    congr 3
    omega

/-- Ending the activations of a participant adds them to the diagram and complains about each. -/
theorem foldl_closeActivation (begun : List (String × ℕ)) :
  begun.foldl (fun s a => closeActivation a.1 s a.2) r =
    { r with
      model := { r.model with
        sequence := begun.foldl (fun d a => d.activateFrom a.1 a.2) r.model.sequence }
      complaints := r.complaints ++ begun.map fun a =>
        .neverDeactivated a.1 r.model.sequence.moment }
  := by
  induction begun generalizing r with
  | nil =>
    rw [List.map_nil, List.append_nil]
    rfl
  | cons a rest ih =>
    rw [List.foldl_cons, ih, List.foldl_cons, List.map_cons]
    simp only [closeActivation, adjustSequence, complain, List.append_assoc, List.singleton_append]
    rfl

/-- At the end of a script the class that is open is complained about, and every pending activation is
ended and complained about. -/
theorem finish_eq :
  r.finish =
    { model := { r.model with
        sequence := r.pending.foldl (fun d a => d.activateFrom a.1 a.2) r.model.sequence }
      active := .empty
      openClass := none
      complaints := r.complaints ++ r.openClass.toList.map .unclosedClass
        ++ r.pending.map fun a => .neverDeactivated a.1 r.model.sequence.moment }
  := by
  have hfold : ∀ s : Reading, r.active.entries.foldl closeParticipant s
      = r.pending.foldl (fun s a => closeActivation a.1 s a.2) s := by
    intro s
    rw [pending, List.foldl_flatMap]
    simp only [List.foldl_map]
    rfl
  cases hopen : r.openClass with
  | none =>
    rw [finish, closeClass, hopen]
    dsimp only
    rw [hfold, foldl_closeActivation, Option.toList_none, List.map_nil, List.append_nil, hopen]
  | some name =>
    rw [finish, closeClass, hopen]
    dsimp only [complain]
    rw [hfold, foldl_closeActivation]
    rfl

end Reading

end DiagramLayout
