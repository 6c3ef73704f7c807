import DiagramLayout.Script.Reading

/-!
# Excerpts of scripts

The excerpt of a script for one kind of diagram has an empty line in place of every line that is not
read for this kind. Which lines these are depends on the lines before them: while a class is open,
every line is part of the class, whatever it would say elsewhere.
-/

namespace DiagramLayout

/-- The kind of diagram that a statement adds to. -/
def Statement.kind : Statement → DiagramKind
  | inlineClass _ _ => .classes
  | openClass _ => .classes
  | relation _ _ _ => .classes
  | activation _ _ => .sequence
  | association _ _ _ => .useCase
  | transition _ _ _ _ => .state
  | message _ _ _ _ => .sequence

/-- The kind of diagram that a complaint is about; a line that says nothing is about none. -/
def Complaint.kind? : Complaint → Option DiagramKind
  | unreadable _ _ => none
  | unmatchedDeactivate _ _ => some .sequence
  | unclosedClass _ => some .classes
  | neverDeactivated _ _ => some .sequence

/-- The model that has the diagram of one kind and no content otherwise. -/
def Model.only (m : Model) (kind : DiagramKind) : Model where
  useCase := if kind = .useCase then m.useCase else .empty
  sequence := if kind = .sequence then m.sequence else .empty
  classes := if kind = .classes then m.classes else .empty
  state := if kind = .state then m.state else .empty

namespace Reading

/-- The complaints about diagrams of one kind. -/
def complaintsOf (r : Reading) (kind : DiagramKind) : List Complaint :=
  r.complaints.filter fun c => c.kind? = some kind

/-- What has been read for one kind of diagram. -/
def only (r : Reading) (kind : DiagramKind) : Reading where
  model := r.model.only kind
  active := if kind = .sequence then r.active else .empty
  openClass := if kind = .classes then r.openClass else none
  complaints := r.complaintsOf kind

/-- The kind of diagram that the next line is read for, if it says something. -/
def kindOf? (r : Reading) (line : List Char) : Option DiagramKind :=
  let normal := Script.normalize line
  if normal.isEmpty then none
  else
    match r.openClass with
    | some _ => some .classes
    | none => (Statement.ofLine? normal).map Statement.kind

/-- The next lines, the first of which has the given number, with an empty line in place of those
that are not read for a kind of diagram. -/
def excerpt (r : Reading) (kind : DiagramKind) (number : Nat) :
    List (List Char) → List (List Char)
  | [] => []
  | line :: rest =>
    (if r.kindOf? line = some kind then line else [])
      :: (r.step number line).excerpt kind (number + 1) rest

end Reading

/-- The text with an empty line in place of every line that is not read for a kind of diagram. -/
def Script.excerpt (kind : DiagramKind) (text : String) : String :=
  String.ofList (unlines (Reading.initial.excerpt kind 1 (lines text.toList)))

end DiagramLayout
