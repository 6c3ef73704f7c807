import DiagramLayout.NameSet

/-!
# State diagrams

States and the transitions between them. The name `*` stands for the pseudo state at which a diagram
starts or ends, and is no state.
-/

namespace DiagramLayout

/-- A transition from one state to another. -/
structure Transition where
  id : String
  source : String
  target : String
  label : String
  isAsync : Bool
deriving DecidableEq

namespace Transition

/-- The name of the pseudo state. -/
def pseudo : String :=
  "*"

/-- Whether the transition leaves the pseudo state. -/
def isInitial (t : Transition) : Bool :=
  t.source == pseudo

/-- Whether the transition enters the pseudo state. -/
def isFinal (t : Transition) : Bool :=
  t.target == pseudo

end Transition

/-- A state diagram. -/
structure StateDiagram where
  states : NameSet
  transitions : List Transition

namespace StateDiagram

/-- The diagram without content. -/
def empty : StateDiagram :=
  ⟨.empty, []⟩

instance : Inhabited StateDiagram :=
  ⟨empty⟩

/-- Adds a state, unless the name stands for the pseudo state. -/
def declare (states : NameSet) (name : String) : NameSet :=
  if name = Transition.pseudo then states else states.insert name

/-- Adds a transition behind the others, its states included. -/
def connect (d : StateDiagram) (source target label : String) (isAsync : Bool) : StateDiagram :=
  ⟨declare (declare d.states source) target, d.transitions ++
    [⟨"state-transition-" ++ toString (d.transitions.length + 1), source, target, label, isAsync⟩]⟩

end StateDiagram

end DiagramLayout
