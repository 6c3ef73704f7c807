import DiagramLayout.Script.Reading

/-!
# The meaning of scripts

What the statements of a script mean all together: the diagrams that they describe and the complaints
that they give rise to. Names stand in the order in which they are first mentioned, and everything else
in the order of the statements, numbered from one on.

The meaning is given for statements that open no class.
-/

namespace DiagramLayout

/-- Things with the numbers from one on, behind a label, as their ids. -/
def numbered {α : Type} (label : String) (things : List (String → α)) : List α :=
  things.mapIdx fun i thing => thing (label ++ toString (i + 1))

/-- The values of a function under names. -/
def Catalog.ofNames {α : Type} (names : NameSet) (value : String → α) : Catalog α where
  entries := names.toList.map fun name => (name, value name)
  nodup := by
    rw [List.map_map]
    simpa only [Function.comp_def, List.map_id'] using names.nodup

/-! ### Use cases and states -/

namespace Statement

/-- The actor that the statement mentions. -/
def actors : Statement → List String
  | association actor _ _ => [actor]
  | _ => []

/-- The use case that the statement mentions. -/
def useCases : Statement → List String
  | association _ useCase _ => [useCase]
  | _ => []

/-- The association that the statement means. -/
def toAssociation? : Statement → Option (String → Association)
  | association actor useCase isAsync => some fun id => ⟨id, actor, useCase, isAsync⟩
  | _ => none

/-- The states that the statement mentions. -/
def states : Statement → List String
  | transition source target _ _ => [source, target]
  | _ => []

/-- The transition that the statement means. -/
def toTransition? : Statement → Option (String → Transition)
  | transition source target label isAsync => some fun id => ⟨id, source, target, label, isAsync⟩
  | _ => none

end Statement

/-- The use case diagram of a script. -/
def UseCaseDiagram.ofScript (script : List Statement) : UseCaseDiagram where
  actors := .ofList (script.flatMap Statement.actors)
  useCases := .ofList (script.flatMap Statement.useCases)
  associations := numbered "usecase-association-" (script.filterMap Statement.toAssociation?)

/-- The state diagram of a script. -/
def StateDiagram.ofScript (script : List Statement) : StateDiagram where
  states := .ofList ((script.flatMap Statement.states).filter (· ≠ "*"))
  transitions := numbered "state-transition-" (script.filterMap Statement.toTransition?)

/-! ### Classes -/

namespace Statement

/-- The classes that the statement mentions; of an inheritance, the heir first. -/
def classes : Statement → List String
  | inlineClass name _ => [name]
  | relation .inheritance parent heir => [heir, parent]
  | relation _ source target => [source, target]
  | _ => []

/-- The members that the statement gives to a class. -/
def membersOf (name : String) : Statement → List (List Char)
  | inlineClass other members => if other = name then members else []
  | _ => []

/-- The relation that the statement means; an inheritance leads from the heir to the parent. -/
def toRelation? : Statement → Option (String → ClassRelation)
  | relation .inheritance parent heir =>
    some fun id => ⟨id, heir, parent, .inheritance, none, some .triangle⟩
  | relation .composition source target =>
    some fun id => ⟨id, source, target, .composition, some .diamond, none⟩
  | relation .aggregation source target =>
    some fun id => ⟨id, source, target, .aggregation, some .hollowDiamond, none⟩
  | relation .association source target =>
    some fun id => ⟨id, source, target, .association, none, none⟩
  | _ => none

end Statement

/-- The class of a name in a script; a member with parentheses is a method. -/
def ClassNode.ofScript (script : List Statement) (name : String) : ClassNode :=
  let members := script.flatMap (Statement.membersOf name)
  { name := name
    attributes := (members.filter fun member => !isMethod member).map String.ofList
    methods := (members.filter isMethod).map String.ofList }

/-- The class diagram of a script. -/
def ClassDiagram.ofScript (script : List Statement) : ClassDiagram where
  classes := .ofNames (.ofList (script.flatMap Statement.classes)) (ClassNode.ofScript script)
  relations := numbered "class-relation-" (script.filterMap Statement.toRelation?)

/-! ### Messages and activations -/

namespace Statement

/-- The participants that the statement mentions. -/
def participants : Statement → List String
  | message sender receiver _ _ => [sender, receiver]
  | activation _ participant => [participant]
  | _ => []

/-- The message that the statement means. -/
def toMessage? : Statement → Option (String → Message)
  | message sender receiver text isAsync => some fun id => ⟨id, sender, receiver, text, isAsync⟩
  | _ => none

end Statement

/-- A command as a script gives it, on a line and at a moment. -/
structure GivenCommand where
  line : Nat
  command : ActivationCommand
  participant : String
  moment : Nat

/-- The command that the statement gives on a line at a moment. -/
def Statement.toCommand? (line moment : Nat) : Statement → Option GivenCommand
  | activation command participant => some ⟨line, command, participant, moment⟩
  | _ => none

/-- The activations in the course of a script: those that are running, the last one first, those that
have ended, and the complaints about deactivations that met none. -/
structure Course where
  running : List (String × Nat)
  ended : List (String → Activation)
  complaints : List Complaint

namespace Course

/-- The course in front of all commands. -/
def initial : Course :=
  ⟨[], [], []⟩

/-- The course behind a command, which begins an activation of its participant or ends the one of it that
began last. -/
def take (c : Course) (given : GivenCommand) : Course :=
  match given.command with
  | .activate => { c with running := (given.participant, given.moment) :: c.running }
  | .deactivate =>
    match c.running.find? fun a => a.1 = given.participant with
    | some begun =>
      { c with
        running := c.running.eraseP fun a => a.1 = given.participant
        ended := c.ended ++ [fun id => ⟨id, given.participant, begun.2, given.moment⟩] }
    | none =>
      { c with complaints := c.complaints ++ [.unmatchedDeactivate given.line given.participant] }

end Course

namespace Script

/-- The number of messages in front of the statement at an index. -/
def momentAt (script : List Statement) (index : Nat) : Nat :=
  ((script.take index).filterMap Statement.toMessage?).length

/-- The commands of a script, whose statements stand one on each line. -/
def commands (script : List Statement) : List GivenCommand :=
  script.zipIdx.filterMap fun e => e.1.toCommand? (e.2 + 1) (momentAt script e.2)

/-- The course of the activations of a script. -/
def course (script : List Statement) : Course :=
  (commands script).foldl Course.take .initial

/-- The participants that a script activates, in the order in which it first does so. -/
def activated (script : List Statement) : NameSet :=
  .ofList (((commands script).filter fun c => c.command = .activate).map GivenCommand.participant)

/-- The activations that last to the end of a script, participant by participant, the one that began
first in front. -/
def lasting (script : List Statement) : List (String × Nat) :=
  (activated script).toList.flatMap fun participant =>
    (course script).running.reverse.filter fun a => a.1 = participant

end Script

/-- The sequence diagram of a script. -/
def SequenceDiagram.ofScript (script : List Statement) : SequenceDiagram where
  participants := .ofList (script.flatMap Statement.participants)
  messages := numbered "sequence-message-" (script.filterMap Statement.toMessage?)
  activations := numbered "activation-" ((Script.course script).ended
    ++ (Script.lasting script).map fun a id =>
      ⟨id, a.1, a.2, Script.momentAt script script.length⟩)
  commands := numbered "seq-command-" ((Script.commands script).map fun c id =>
    ⟨id, c.command, c.participant, c.moment⟩)

/-! ### Everything -/

/-- The model of a script. -/
def Model.ofScript (script : List Statement) : Model where
  useCase := .ofScript script
  sequence := .ofScript script
  classes := .ofScript script
  state := .ofScript script

/-- The complaints that a script gives rise to: first those about deactivations that meet no activation,
then those about activations that last to the end. -/
def Complaint.ofScript (script : List Statement) : List Complaint :=
  (Script.course script).complaints
    ++ (Script.lasting script).map fun a =>
      .neverDeactivated a.1 (Script.momentAt script script.length)

end DiagramLayout
