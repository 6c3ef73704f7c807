import DiagramLayout.Json.Basic
import DiagramLayout.Script.Detection

/-!
# Reports of models

The JSON value of a reading: what kind it is taken for, the diagrams of all kinds and the
complaints.
-/

namespace DiagramLayout.Report

/-- The value of an association. -/
def association (a : Association) : Json :=
  .object [("id", .string a.id), ("actor", .string a.actor), ("use_case", .string a.useCase),
    ("is_async", .bool a.isAsync)]

/-- The value of a use case diagram. -/
def useCase (d : UseCaseDiagram) : Json :=
  .object [("actors", .strings d.actors.toList), ("use_cases", .strings d.useCases.toList),
    ("associations", .array (d.associations.map association))]

/-- The value of a message. -/
def message (m : Message) : Json :=
  .object [("id", .string m.id), ("from", .string m.sender), ("to", .string m.receiver),
    ("text", .string m.text), ("is_async", .bool m.isAsync)]

/-- The value of an activation. -/
def activation (a : Activation) : Json :=
  .object [("id", .string a.id), ("participant", .string a.participant),
    ("start_index", .nat a.start), ("end_index", .nat a.finish)]

/-- The value of a command. -/
def command (c : SequenceCommand) : Json :=
  .object [("id", .string c.id), ("command", .string c.command.name),
    ("participant", .string c.participant), ("at_message_index", .nat c.moment)]

/-- The value of a sequence diagram. -/
def sequence (d : SequenceDiagram) : Json :=
  .object [("participants", .strings d.participants.toList),
    ("messages", .array (d.messages.map message)),
    ("activations", .array (d.activations.map activation)),
    ("commands", .array (d.commands.map command))]

/-- The value of a class. -/
def classNode (c : ClassNode) : Json :=
  .object [("name", .string c.name), ("attributes", .strings c.attributes),
    ("methods", .strings c.methods)]

/-- The name of a mark, or null. -/
def marker (m : Option Marker) : Json :=
  .stringOrNull (m.map Marker.name)

/-- The value of a relation. -/
def relation (r : ClassRelation) : Json :=
  .object [("id", .string r.id), ("from", .string r.source), ("to", .string r.target),
    ("kind", .string r.kind.name), ("marker_start", marker r.startMarker),
    ("marker_end", marker r.endMarker)]

/-- The value of a class diagram. -/
def classes (d : ClassDiagram) : Json :=
  .object [("classes", .object (d.classes.entries.map fun e => (e.1, classNode e.2))),
    ("relations", .array (d.relations.map relation))]

/-- The value of a transition. -/
def transition (t : Transition) : Json :=
  .object [("id", .string t.id), ("from", .string t.source), ("to", .string t.target),
    ("label", .string t.label), ("is_async", .bool t.isAsync)]

/-- The value of a state diagram. -/
def state (d : StateDiagram) : Json :=
  .object [("states", .strings d.states.toList),
    ("transitions", .array (d.transitions.map transition))]

/-- The value of a model. -/
def model (m : Model) : Json :=
  .object [("use_case", useCase m.useCase), ("sequence", sequence m.sequence),
    ("class", classes m.classes), ("state", state m.state)]

/-- The names of kinds. -/
def kinds (ks : List DiagramKind) : Json :=
  .strings (ks.map DiagramKind.name)

/-- The texts of complaints. -/
def complaints (cs : List Complaint) : Json :=
  .strings (cs.map Complaint.message)

/-- The value of a reading. -/
def reading (r : Reading) : Json :=
  .object [("detected_type", .string r.model.detect.name),
    ("candidate_types", kinds r.model.candidates), ("model", model r.model),
    ("errors", complaints r.complaints)]

end DiagramLayout.Report
