import DiagramLayout.Diagram.Class
import DiagramLayout.Diagram.Kind
import DiagramLayout.Diagram.Sequence
import DiagramLayout.Diagram.State
import DiagramLayout.Diagram.UseCase

/-!
# Models

A model holds a diagram of every kind. The score of a kind says how much content its diagram has.
-/

namespace DiagramLayout

/-- A diagram of every kind. -/
structure Model where
  useCase : UseCaseDiagram
  sequence : SequenceDiagram
  classes : ClassDiagram
  state : StateDiagram

namespace Model

/-- The model without content. -/
def empty : Model :=
  ⟨.empty, .empty, .empty, .empty⟩

instance : Inhabited Model :=
  ⟨empty⟩

/-- How much content the diagram of a kind has. -/
def score (m : Model) : DiagramKind → Nat
  | .useCase => m.useCase.associations.length
  | .sequence => m.sequence.messages.length + m.sequence.activations.length
  | .classes =>
    2 * m.classes.classes.size + m.classes.relations.length
      + m.classes.classes.values.foldl (fun sum node => sum + node.memberCount) 0
  | .state => m.state.transitions.length

end Model

end DiagramLayout
