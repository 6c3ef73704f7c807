import DiagramLayout.NameSet

/-!
# Sequence diagrams

Participants send messages. Commands activate and deactivate a participant between two messages;
an activation is the interval between two such moments, counted in messages.
-/

namespace DiagramLayout

/-- A message from one participant to another. -/
structure Message where
  id : String
  sender : String
  receiver : String
  text : String
  isAsync : Bool
deriving DecidableEq

/-- The interval of messages during which a participant is active. -/
structure Activation where
  id : String
  participant : String
  start : Nat
  finish : Nat
deriving DecidableEq

/-- What a command does to a participant. -/
inductive ActivationCommand
  | activate
  | deactivate
deriving DecidableEq

/-- The name of a command. -/
def ActivationCommand.name : ActivationCommand → String
  | activate => "activate"
  | deactivate => "deactivate"

/-- A command given to a participant before the message at an index. -/
structure SequenceCommand where
  id : String
  command : ActivationCommand
  participant : String
  moment : Nat
deriving DecidableEq

/-- A sequence diagram. -/
structure SequenceDiagram where
  participants : NameSet
  messages : List Message
  activations : List Activation
  commands : List SequenceCommand

namespace SequenceDiagram

/-- The diagram without content. -/
def empty : SequenceDiagram :=
  ⟨.empty, [], [], []⟩

instance : Inhabited SequenceDiagram :=
  ⟨empty⟩

/-- The number of messages so far, which is the index of the next one. -/
def moment (d : SequenceDiagram) : Nat :=
  d.messages.length

/-- Adds a message behind the others, its ends included. -/
def send (d : SequenceDiagram) (sender receiver text : String) (isAsync : Bool) :
    SequenceDiagram :=
  { d with
    participants := (d.participants.insert sender).insert receiver
    messages := d.messages ++
      [⟨"sequence-message-" ++ toString (d.messages.length + 1), sender, receiver, text, isAsync⟩] }

/-- Adds a command behind the others, its participant included. -/
def give (d : SequenceDiagram) (command : ActivationCommand) (participant : String) :
    SequenceDiagram :=
  { d with
    participants := d.participants.insert participant
    commands := d.commands ++
      [⟨"seq-command-" ++ toString (d.commands.length + 1), command, participant, d.moment⟩] }

/-- Adds an activation behind the others, from a moment until now. -/
def activateFrom (d : SequenceDiagram) (participant : String) (start : Nat) : SequenceDiagram :=
  { d with
    activations := d.activations ++
      [⟨"activation-" ++ toString (d.activations.length + 1), participant, start, d.moment⟩] }

end SequenceDiagram

end DiagramLayout
