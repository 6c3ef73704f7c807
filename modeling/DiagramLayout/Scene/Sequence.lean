import DiagramLayout.Diagram.Sequence
import DiagramLayout.Route.Connector
import DiagramLayout.Scene.Basic
import DiagramLayout.Settings.Sections

/-!
# Scenes of sequence diagrams

Participants head their lifelines from left to right, and each message has a height of its own
below them. A message between two participants is routed around the heads; a message of a
participant to itself is a loop of three segments on the right of its lifeline. Activation bars are
no obstacles.
-/

namespace DiagramLayout

namespace SequenceSettings

/-- The height of the message at an index. -/
def messageY (s : SequenceSettings) (index : Nat) : Float32 :=
  s.messageStartY + Float32.ofNat index * s.messageGap

/-- Where the lifeline of the participant at an index runs. -/
def lifelineX (s : SequenceSettings) (index : Nat) : Float32 :=
  s.participantStartX + Float32.ofNat index * s.participantGap

/-- The node of the participant at an index. -/
def participantNode (s : SequenceSettings) (index : Nat) (name : String) : Node :=
  .labelled name name .participant
    ⟨s.lifelineX index - s.headerWidth / 2.0, s.headerY, s.headerWidth, s.headerHeight⟩

/-- The nodes of a diagram. -/
def nodes (s : SequenceSettings) (d : SequenceDiagram) : Catalog Node :=
  Node.catalog (d.participants.toList.mapIdx s.participantNode)

/-- The width of the canvas. -/
def canvasWidth (s : SequenceSettings) (d : SequenceDiagram) : Float32 :=
  Single.greater s.minWidth
    (s.participantStartX + Float32.ofNat d.participants.size * s.participantGap + s.rightMargin)

/-- The height of the canvas. -/
def canvasHeight (s : SequenceSettings) (d : SequenceDiagram) : Float32 :=
  Single.greater s.minHeight
    (s.messageStartY + Float32.ofNat d.messages.length * s.messageGap + s.bottomMargin)

/-- The lifeline of the participant at an index of a diagram. -/
def lifeline (s : SequenceSettings) (d : SequenceDiagram) (index : Nat) (name : String) :
    Lifeline :=
  ⟨name, s.lifelineX index, s.headerY + s.headerHeight, s.canvasHeight d - s.lifelineBottomMargin⟩

/-- The bar of an activation, none when its participant has no node. -/
def bar? (s : SequenceSettings) (nodes : Catalog Node) (a : Activation) : Option ActivationBar :=
  (nodes.find? a.participant).map fun node =>
    let span := (Float32.ofNat a.finish - Float32.ofNat a.start) * s.messageGap
    ⟨a.id, a.participant,
      ⟨node.box.center.x - s.activationWidth / 2.0, s.messageY a.start - s.activationLead,
        s.activationWidth, Single.greater (span + s.activationTail) s.activationMinHeight⟩⟩

/-- The points of the loop beside a lifeline. -/
def loopPoints (s : SequenceSettings) (x y : Float32) : List Point :=
  let near := x + s.lifelineClearance
  let far := near + s.selfLoopWidth
  let low := y + s.selfLoopHeight
  [⟨near, y⟩, ⟨far, y⟩, ⟨far, low⟩, ⟨near, low⟩]

/-- Where the label of a loop stands. -/
def loopLabelPosition (s : SequenceSettings) (x y : Float32) : Point :=
  ⟨x + s.lifelineClearance + s.selfLoopWidth + s.selfLabelGap, y + s.selfLabelDrop⟩

/-- The ends of a message at a height, between two lifelines. -/
def messageEnds (s : SequenceSettings) (sourceX targetX y : Float32) : Attachment :=
  if sourceX < targetX then
    ⟨.onSide (sourceX + s.lifelineClearance) y .right,
      .onSide (targetX - s.lifelineClearance) y .left⟩
  else
    ⟨.onSide (sourceX - s.lifelineClearance) y .left,
      .onSide (targetX + s.lifelineClearance) y .right⟩

end SequenceSettings

namespace Message

/-- The edge of a message of a participant to itself, at an index. -/
def loopEdge (m : Message) (settings : Settings) (index : Nat) (node : Node) : Edge :=
  let x := node.box.center.x
  let y := settings.sequence.messageY index
  { id := m.id
    source := m.sender
    target := m.receiver
    points := settings.sequence.loopPoints x y
    label := some ⟨m.text, settings.sequence.loopLabelPosition x y, none⟩
    arrow := some (.ofAsync m.isAsync)
    isSelfLoop := true }

/-- The edge of a message between two participants, at an index. -/
def rowEdge (m : Message) (settings : Settings) (nodes : Catalog Node) (index : Nat)
    (source target : Node) : Edge :=
  let s := settings.sequence
  let ends := s.messageEnds source.box.center.x target.box.center.x (s.messageY index)
  let points := (Connector.mk ends.start ends.finish (Scene.obstacles nodes) s.route
    settings.router).route
  let middle := points.getD (points.length / 2) ends.start.point
  { id := m.id
    source := m.sender
    target := m.receiver
    points := points
    label := some ⟨m.text, middle.offset 0.0 (-s.labelLift), none⟩
    arrow := some (.ofAsync m.isAsync) }

/-- The edge of the message at an index, none when one of its ends has no node. -/
def edge? (m : Message) (settings : Settings) (nodes : Catalog Node) (index : Nat) : Option Edge :=
  match nodes.find? m.sender, nodes.find? m.receiver with
  | some source, some target =>
    if m.sender = m.receiver then some (m.loopEdge settings index source)
    else some (m.rowEdge settings nodes index source target)
  | _, _ => none

end Message

/-- The scene of a sequence diagram. -/
def SequenceDiagram.scene (d : SequenceDiagram) (settings : Settings) : Scene :=
  let s := settings.sequence
  let nodes := s.nodes d
  { kind := .sequence
    width := s.canvasWidth d
    height := s.canvasHeight d
    nodes := nodes
    edges := d.messages.zipIdx.filterMap fun m => m.1.edge? settings nodes m.2
    lifelines := d.participants.toList.mapIdx (s.lifeline d)
    bars := d.activations.filterMap (s.bar? nodes) }

end DiagramLayout
