import DiagramLayout.NameSet

/-!
# Use case diagrams

Actors, use cases and the associations between them.
-/

namespace DiagramLayout

/-- An actor takes part in a use case. -/
structure Association where
  id : String
  actor : String
  useCase : String
  isAsync : Bool
deriving DecidableEq

/-- A use case diagram. -/
structure UseCaseDiagram where
  actors : NameSet
  useCases : NameSet
  associations : List Association

namespace UseCaseDiagram

/-- The diagram without content. -/
def empty : UseCaseDiagram :=
  ⟨.empty, .empty, []⟩

instance : Inhabited UseCaseDiagram :=
  ⟨empty⟩

/-- Adds an association behind the others, its ends included. -/
def associate (d : UseCaseDiagram) (actor useCase : String) (isAsync : Bool) : UseCaseDiagram :=
  ⟨d.actors.insert actor, d.useCases.insert useCase,
    d.associations ++
      [⟨"usecase-association-" ++ toString (d.associations.length + 1), actor, useCase, isAsync⟩]⟩

end UseCaseDiagram

end DiagramLayout
