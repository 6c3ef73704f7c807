import DiagramLayout.Script.Reading

/-!
# Detecting the kind of a diagram

A script is of the kind whose diagram has the most content. When two kinds share the first place it
is mixed, and when no diagram has any content its kind is unknown.
-/

namespace DiagramLayout

/-- The outcome of detecting a kind. -/
inductive Detection
  | only (kind : DiagramKind)
  | mixed
  | unknown
deriving DecidableEq

/-- The name of an outcome. -/
def Detection.name : Detection → String
  | only kind => kind.name
  | mixed => "mixed"
  | unknown => "unknown"

namespace Model

/-- The kinds whose diagrams have content. -/
def candidates (m : Model) : List DiagramKind :=
  DiagramKind.all.filter fun k => 0 < m.score k

/-- The greatest score of a kind. -/
def bestScore (m : Model) : Nat :=
  (DiagramKind.all.map m.score).foldl max 0

/-- The kind that a model is taken for. -/
def detect (m : Model) : Detection :=
  if m.candidates.isEmpty then .unknown
  else
    match DiagramKind.all.filter fun k => m.score k = m.bestScore with
    | [kind] => .only kind
    | _ => .mixed

/-- The kind to be drawn: the selected one, or the detected one, or the first candidate of a mixed
model. -/
def activeKind? (m : Model) (selection : Option DiagramKind) : Option DiagramKind :=
  match selection with
  | some kind => some kind
  | none =>
    match m.detect with
    | .only kind => some kind
    | .mixed => m.candidates.head?
    | .unknown => none

end Model

end DiagramLayout
