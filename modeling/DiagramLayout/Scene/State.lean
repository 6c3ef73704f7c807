import DiagramLayout.Caption
import DiagramLayout.Diagram.State
import DiagramLayout.Route.Connector
import DiagramLayout.Scene.Basic
import DiagramLayout.Scene.Lane
import DiagramLayout.Settings.Sections

/-!
# Scenes of state diagrams

States fill a square row by row. The pseudo state becomes a node on the left where transitions leave
it and a node on the right where they enter it. Transitions are drawn one after another, each in a
lane of its own and around the segments drawn before, and each label takes a place that the labels
before have left.
-/

namespace DiagramLayout

namespace StateSettings

/-- The id of the node at which a diagram starts. -/
def initialId : String :=
  "__start"

/-- The id of the node at which a diagram ends. -/
def finalId : String :=
  "__end"

/-- The node of the state at an index, with the number of columns. -/
def stateNode (s : StateSettings) (columns index : Nat) (name : String) : Node :=
  .labelled name name .state
    ⟨s.startX + Float32.ofNat (index % columns) * s.cellWidth,
      s.startY + Float32.ofNat (index / columns) * s.cellHeight, s.stateWidth, s.stateHeight⟩

/-- The nodes of the states of a diagram. -/
def stateNodes (s : StateSettings) (d : StateDiagram) : Catalog Node :=
  Node.catalog (d.states.toList.mapIdx (s.stateNode (Scene.columns d.states.size)))

/-- The node of the pseudo state where it is left. -/
def initialNode (s : StateSettings) : Node :=
  ⟨initialId, "", .initial, .around ⟨s.pseudoStartX, s.pseudoY⟩ s.startRadius, .leftToRight⟩

/-- The middle of the node at which a diagram ends, on the right of all states. -/
def finalX (s : StateSettings) (states : Catalog Node) : Float32 :=
  Scene.furthest states Rect.right s.minRightmost + s.endGap

/-- The node of the pseudo state where it is entered. -/
def finalNode (s : StateSettings) (states : Catalog Node) : Node :=
  ⟨finalId, "", .final, .around ⟨s.finalX states, s.pseudoY⟩ s.endRadius, .leftToRight⟩

/-- Whether a transition of the diagram leaves the pseudo state. -/
def hasInitial (d : StateDiagram) : Bool :=
  d.transitions.any Transition.isInitial

/-- Whether a transition of the diagram enters the pseudo state. -/
def hasFinal (d : StateDiagram) : Bool :=
  d.transitions.any Transition.isFinal

/-- The nodes of a diagram: those of its states, then those of the pseudo state. -/
def nodes (s : StateSettings) (d : StateDiagram) : Catalog Node :=
  let states := s.stateNodes d
  let started := if hasInitial d then states.put initialId s.initialNode else states
  if hasFinal d then started.put finalId (s.finalNode states) else started

/-- The width of the canvas. -/
def canvasWidth (s : StateSettings) (d : StateDiagram) : Float32 :=
  let states := s.stateNodes d
  let width := Scene.furthest states (fun box => box.right + s.rightMargin) s.minWidth
  if hasFinal d then Single.greater width (s.finalX states + s.endGap) else width

/-- The height of the canvas. -/
def canvasHeight (s : StateSettings) (d : StateDiagram) : Float32 :=
  Scene.furthest (s.stateNodes d) (fun box => box.bottom + s.bottomMargin) s.minHeight

end StateSettings

namespace Transition

/-- The id of the node that the transition leaves. -/
def sourceId (t : Transition) : String :=
  if t.isInitial then StateSettings.initialId else t.source

/-- The id of the node that the transition enters. -/
def targetId (t : Transition) : String :=
  if t.isFinal then StateSettings.finalId else t.target

end Transition

/-- What the transitions drawn so far leave to those that follow: the lanes that are taken and the
places of labels and segments. -/
structure StateCanvas where
  lanes : Lanes
  placer : CaptionPlacer

namespace StateCanvas

/-- Nothing drawn. -/
def initial : StateCanvas :=
  ⟨[], .initial⟩

/-- The ends of a transition between two boxes, moved to its lane: downwards when the boxes lie side
by side, and to the right when one is above the other. -/
def ends (c : StateCanvas) (settings : Settings) (source target : Node) : Attachment :=
  let offset := c.lanes.offset source.id target.id settings.state.laneBase settings.state.laneStep
  let straight := Attachment.select source.box target.box settings.attachment
  let dx := target.box.center.x - source.box.center.x
  let dy := target.box.center.y - source.box.center.y
  if dx.abs ≥ dy.abs then ⟨straight.start.shifted 0.0 offset, straight.finish.shifted 0.0 offset⟩
  else ⟨straight.start.shifted offset 0.0, straight.finish.shifted offset 0.0⟩

/-- The segments drawn so far, as obstacles. -/
def drawnObstacles (c : StateCanvas) : List Obstacle :=
  c.placer.drawn.mapIdx fun index box => ⟨"path-rect-" ++ toString (index + 1), box⟩

/-- The points of a transition between two nodes. -/
def route (c : StateCanvas) (settings : Settings) (nodes : Catalog Node) (source target : Node) :
    List Point :=
  let ends := c.ends settings source target
  let others := Obstacle.excluding (Scene.obstacles nodes) [source.id, target.id]
  (Connector.mk ends.start ends.finish (others ++ c.drawnObstacles) settings.state.route
    settings.router).route

/-- Draws a transition between two nodes. -/
def draw (c : StateCanvas) (settings : Settings) (nodes : Catalog Node) (t : Transition)
    (source target : Node) : Edge × StateCanvas :=
  let points := c.route settings nodes source target
  let boxes := nodes.values.map Node.box
  let (caption, placer) := c.placer.place settings.caption t.label points boxes
  ({ id := t.id
     source := source.id
     target := target.id
     points := points
     label := caption.map fun place => ⟨t.label, place.center, some place.box⟩
     arrow := some (.ofAsync t.isAsync) },
    ⟨c.lanes.take source.id target.id, placer.record points settings.state.pathClearance⟩)

/-- The edges of transitions drawn in order; one that has an end without a node is left out. -/
def edges (c : StateCanvas) (settings : Settings) (nodes : Catalog Node) :
    List Transition → List Edge
  | [] => []
  | t :: rest =>
    match nodes.find? t.sourceId, nodes.find? t.targetId with
    | some source, some target =>
      let (edge, next) := c.draw settings nodes t source target
      edge :: next.edges settings nodes rest
    | _, _ => c.edges settings nodes rest

end StateCanvas

/-- The scene of a state diagram. -/
def StateDiagram.scene (d : StateDiagram) (settings : Settings) : Scene :=
  let nodes := settings.state.nodes d
  { kind := .state
    width := settings.state.canvasWidth d
    height := settings.state.canvasHeight d
    nodes := nodes
    edges := StateCanvas.initial.edges settings nodes d.transitions }

end DiagramLayout
