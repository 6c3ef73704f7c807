import DiagramLayout.Script.Grammar
import DiagramLayout.Script.Line

/-!
# Reading scripts

A script is read into a model of all kinds of diagrams at once. Reading never fails: a line that
says nothing is reported as a complaint, together with deactivations that meet no activation, a
class that is never closed and activations that last to the end.
-/

namespace DiagramLayout

/-- What is wrong with a script. -/
inductive Complaint
  | unreadable (line : Nat) (text : String)
  | unmatchedDeactivate (line : Nat) (participant : String)
  | unclosedClass (name : String)
  | neverDeactivated (participant : String) (moment : Nat)
deriving DecidableEq

/-- The text of a complaint. -/
def Complaint.message : Complaint → String
  | unreadable line text => "Line " ++ toString line ++ ": could not parse \"" ++ text ++ "\"."
  | unmatchedDeactivate line participant =>
    "Line " ++ toString line ++ ": deactivate without matching activate for \"" ++ participant
      ++ "\"."
  | unclosedClass name => "Unclosed class block for \"" ++ name ++ "\"."
  | neverDeactivated participant moment =>
    "Activation for \"" ++ participant ++ "\" was never deactivated; closed at message "
      ++ toString moment ++ "."

/-- What has been read so far: the model, for each participant the moments at which its open
activations began, the last one first, the class that is open, and the complaints. -/
structure Reading where
  model : Model
  active : Catalog (List Nat)
  openClass : Option String
  complaints : List Complaint

namespace Reading

/-- The reading of nothing. -/
def initial : Reading :=
  ⟨.empty, .empty, none, []⟩

/-- Reports a complaint. -/
def complain (r : Reading) (c : Complaint) : Reading :=
  { r with complaints := r.complaints ++ [c] }

/-- Changes the class of a name. -/
def adjustClass (r : Reading) (name : String) (update : ClassNode → ClassNode) : Reading :=
  { r with model := { r.model with classes := r.model.classes.adjust name update } }

/-- Changes the sequence diagram. -/
def adjustSequence (r : Reading) (update : SequenceDiagram → SequenceDiagram) : Reading :=
  { r with model := { r.model with sequence := update r.model.sequence } }

/-- Begins an activation of a participant. -/
def activate (r : Reading) (participant : String) : Reading :=
  { r with active := r.active.adjust participant [] (r.model.sequence.moment :: ·) }

/-- Ends the activation of a participant that began last; without one, complains. -/
def deactivate (r : Reading) (line : Nat) (participant : String) : Reading :=
  match r.active.find? participant with
  | some (start :: others) =>
    { r with active := r.active.put participant others }.adjustSequence
      fun d => d.activateFrom participant start
  | _ => r.complain (.unmatchedDeactivate line participant)

/-- Carries out a statement read on a line. -/
def perform (r : Reading) (line : Nat) : Statement → Reading
  | .inlineClass name members => r.adjustClass name (·.addMembers members)
  | .openClass name => { r.adjustClass name id with openClass := some name }
  | .relation kind left right =>
    let (source, target) := if kind = .inheritance then (right, left) else (left, right)
    { r with model := { r.model with classes := r.model.classes.relate kind source target } }
  | .activation command participant =>
    let given := r.adjustSequence (·.give command participant)
    match command with
    | .activate => given.activate participant
    | .deactivate => given.deactivate line participant
  | .association actor useCase isAsync =>
    { r with model := { r.model with useCase := r.model.useCase.associate actor useCase isAsync } }
  | .transition source target label isAsync =>
    { r with model := { r.model with state := r.model.state.connect source target label isAsync } }
  | .message sender receiver text isAsync =>
    r.adjustSequence (·.send sender receiver text isAsync)

/-- Carries out a line in the body of the class `name`. -/
def performBody (r : Reading) (name : String) : BodyLine → Reading
  | .member text => r.adjustClass name (·.addMember text)
  | .last text => { r.adjustClass name (·.addMember text) with openClass := none }

/-- Reads a normal line that is not empty. -/
def readLine (r : Reading) (number : Nat) (line : List Char) : Reading :=
  match r.openClass with
  | some name => r.performBody name (.ofLine line)
  | none =>
    match Statement.ofLine? line with
    | some statement => r.perform number statement
    | none => r.complain (.unreadable number (String.ofList line))

/-- Reads a line as it is written; an empty normal form says nothing. -/
def step (r : Reading) (number : Nat) (line : List Char) : Reading :=
  let normal := Script.normalize line
  if normal.isEmpty then r else r.readLine number normal

/-- Reads lines, the first of which has the given number. -/
def readFrom (r : Reading) (number : Nat) : List (List Char) → Reading
  | [] => r
  | line :: rest => (r.step number line).readFrom (number + 1) rest

/-- Complains about a class that is still open. -/
def closeClass (r : Reading) : Reading :=
  match r.openClass with
  | some name => { r.complain (.unclosedClass name) with openClass := none }
  | none => r

/-- Ends an activation at the end of the script. -/
def closeActivation (participant : String) (r : Reading) (start : Nat) : Reading :=
  (r.complain (.neverDeactivated participant r.model.sequence.moment)).adjustSequence
    fun d => d.activateFrom participant start

/-- Ends the activations of a participant at the end of the script, the one that began first
first. -/
def closeParticipant (r : Reading) (entry : String × List Nat) : Reading :=
  entry.2.reverse.foldl (closeActivation entry.1) r

/-- Closes what is open at the end of the script. -/
def finish (r : Reading) : Reading :=
  let closed := r.closeClass
  closed.active.entries.foldl closeParticipant { closed with active := .empty }

/-- The reading of a whole text. -/
def ofText (text : String) : Reading :=
  (initial.readFrom 1 (Script.lines text.toList)).finish

end Reading

end DiagramLayout
