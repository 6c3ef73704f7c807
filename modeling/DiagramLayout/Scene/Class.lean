import DiagramLayout.Route.Connector
import DiagramLayout.Scene.Class.Placement
import DiagramLayout.Scene.Class.Slot

/-!
# Scenes of class diagrams

Class boxes stand in their places and relations lead from box to box. An inheritance joins the
middle of one side of the heir to the slot of the heir on the facing side of the parent; other
relations are attached where it suits them.
-/

namespace DiagramLayout

namespace ClassDiagram

/-- The node of a class, with the places of all classes. -/
def node (s : ClassSettings) (places : Places) (name : String) (c : ClassNode) : Node :=
  .labelled name c.name .classBox (places.box name (s.sizeOf c))

/-- The nodes of the classes. -/
def nodes (d : ClassDiagram) (s : ClassSettings) : Catalog Node :=
  let places := d.places s
  Node.catalog (d.classes.entries.map fun e => node s places e.1 e.2)

/-- The insides of the class boxes. -/
def compartments (d : ClassDiagram) (s : ClassSettings) : List Compartments :=
  let places := d.places s
  d.classes.entries.map fun e => s.compartments (node s places e.1 e.2).box e.2

end ClassDiagram

namespace ClassRelation

/-- The ends of an inheritance whose heir has a slot: on the upper side of the heir when the parent
lies above it, and otherwise on the lower side. -/
def inheritanceEnds (heir parent : Rect) (slot : Slot) : Attachment :=
  if parent.bottom ≤ heir.y then ⟨heir.dividing .top 0.5, parent.dividing .bottom slot.ratio⟩
  else ⟨heir.dividing .bottom 0.5, parent.dividing .top slot.ratio⟩

/-- The ends of a relation between two nodes. -/
def ends (r : ClassRelation) (settings : Settings) (slots : Catalog Slot) (source target : Node) :
    Attachment :=
  if r.kind = .inheritance then
    inheritanceEnds source.box target.box ((slots.find? r.id).getD ⟨0, 1⟩)
  else Attachment.select source.box target.box settings.attachment

/-- The edge of a relation between two nodes. -/
def edge (r : ClassRelation) (settings : Settings) (nodes : Catalog Node) (slots : Catalog Slot)
    (source target : Node) : Edge :=
  let ends := r.ends settings slots source target
  let obstacles := Obstacle.excluding (Scene.obstacles nodes) [source.id, target.id]
  let connector :=
    Connector.mk ends.start ends.finish obstacles settings.classes.route settings.router
  { id := r.id
    source := source.id
    target := target.id
    points := connector.route
    startMarker := r.startMarker
    endMarker := r.endMarker }

/-- The edge of a relation, none when one of its ends has no node. -/
def edge? (r : ClassRelation) (settings : Settings) (nodes : Catalog Node) (slots : Catalog Slot) :
    Option Edge :=
  match nodes.find? r.source, nodes.find? r.target with
  | some source, some target => some (r.edge settings nodes slots source target)
  | _, _ => none

end ClassRelation

/-- The scene of a class diagram. -/
def ClassDiagram.scene (d : ClassDiagram) (settings : Settings) : Scene :=
  let s := settings.classes
  let nodes := d.nodes s
  let slots := Slot.all nodes d.relations
  { kind := .classes
    width := Scene.furthest nodes Rect.right s.minCanvasWidth + s.canvasMargin
    height := Scene.furthest nodes Rect.bottom s.minCanvasHeight + s.canvasMargin
    nodes := nodes
    edges := d.relations.filterMap fun r => r.edge? settings nodes slots
    compartments := d.compartments s }

end DiagramLayout
