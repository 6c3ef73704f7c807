import DiagramLayout.Report.Model
import DiagramLayout.Scene.Class
import DiagramLayout.Scene.Sequence
import DiagramLayout.Scene.State
import DiagramLayout.Scene.UseCase

/-!
# Scenes of models and their reports

A model is drawn as its diagram of one kind. The report is the JSON value of a scene, together with what
is known about the text that it was read from. What a scene or an edge does not have is left out.
-/

namespace DiagramLayout

/-- The scene of the diagram of a kind. -/
def Model.scene (m : Model) (kind : DiagramKind) (settings : Settings) : Scene :=
  match kind with
  | .useCase => m.useCase.scene settings
  | .sequence => m.sequence.scene settings
  | .classes => m.classes.scene settings
  | .state => m.state.scene settings

namespace Report

/-- The coordinates of a point. -/
def point (p : Point) : Json :=
  .array [.single p.x, .single p.y]

/-- The fields of a rectangle. -/
def rect (r : Rect) : List (String × Json) :=
  [("x", .single r.x), ("y", .single r.y), ("width", .single r.width), ("height", .single r.height)]

/-- The value of a node. -/
def node (n : Node) : Json :=
  .object ([("id", .string n.id), ("label", .string n.label), ("shape", .string n.shape.name)]
    ++ rect n.box ++ [("direction", .string n.direction.name)])

/-- The value of the label of an edge. -/
def edgeLabel (l : EdgeLabel) : Json :=
  .object ([("text", .string l.text), ("x", .single l.position.x), ("y", .single l.position.y)]
    ++ Json.optional "rect" (l.box.map fun box => .object (rect box)))

/-- The value of an edge. -/
def edge (e : Edge) : Json :=
  .object ([("id", .string e.id), ("from", .string e.source), ("to", .string e.target),
      ("points", .array (e.points.map point))]
    ++ Json.optional "label" (e.label.map edgeLabel)
    ++ Json.optional "arrow_end" (e.arrow.map fun a => .string a.name)
    ++ Json.optional "marker_start" (e.startMarker.map fun m => .string m.name)
    ++ Json.optional "marker_end" (e.endMarker.map fun m => .string m.name)
    ++ [("self_loop", .bool e.isSelfLoop)])

/-- The value of a lifeline. -/
def lifeline (l : Lifeline) : Json :=
  .object [("participant", .string l.participant), ("x", .single l.x), ("y1", .single l.top),
    ("y2", .single l.bottom)]

/-- The value of an activation bar. -/
def bar (b : ActivationBar) : Json :=
  .object (("id", .string b.id) :: rect b.box)

/-- The value of a row of a class box. -/
def row (r : MemberRow) : Json :=
  .object [("section", .string r.part.name), ("text", .string r.text), ("x", .single r.position.x),
    ("y", .single r.position.y), ("direction", .string r.direction.name)]

/-- The value of the inside of a class box. -/
def compartments (c : Compartments) : Json :=
  .object [("class", .string c.className), ("title", point c.title),
    ("header_divider_y", .single c.headerDivider), ("members_divider_y", .single c.membersDivider),
    ("rows", .array (c.rows.map row))]

/-- The value of a scene, with the detected type of the text, its candidates and its complaints. -/
def scene (s : Scene) (detected : Detection) (candidates : List DiagramKind)
    (found : List Complaint) : Json :=
  .object ([("kind", .string s.kind.name), ("detected_type", .string detected.name),
      ("candidate_types", kinds candidates), ("width", .single s.width),
      ("height", .single s.height), ("nodes", .array (s.nodes.values.map node)),
      ("edges", .array (s.edges.map edge))]
    ++ Json.unlessEmpty "lifelines" (s.lifelines.map lifeline)
    ++ Json.unlessEmpty "activations" (s.bars.map bar)
    ++ Json.unlessEmpty "classes" (s.compartments.map compartments)
    ++ [("errors", complaints found)])

/-- The value of a scene drawn from a reading. -/
def sceneOf (r : Reading) (s : Scene) : Json :=
  scene s r.model.detect r.model.candidates r.complaints

end Report

end DiagramLayout
