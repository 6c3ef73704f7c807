import DiagramLayout.Diagram.UseCase
import DiagramLayout.Route.Connector
import DiagramLayout.Scene.Basic
import DiagramLayout.Settings.Sections

/-!
# Scenes of use case diagrams

Actors stand in a column on the left and use cases in a column on the right, in the order of the
diagram. A name may be both an actor and a use case: the ids of their nodes differ.
-/

namespace DiagramLayout

namespace UseCaseSettings

/-- The id of the node of an actor. -/
def actorId (name : String) : String :=
  "actor:" ++ name

/-- The id of the node of a use case. -/
def useCaseId (name : String) : String :=
  "usecase:" ++ name

/-- The node of the actor at an index. -/
def actorNode (s : UseCaseSettings) (index : Nat) (name : String) : Node :=
  let middle := s.actorStartY + Float32.ofNat index * s.actorSpacing
  .labelled (actorId name) name .actor
    ⟨s.actorX - s.actorWidth / 2.0, middle - s.actorHeight / 2.0, s.actorWidth, s.actorHeight⟩

/-- The node of the use case at an index. -/
def useCaseNode (s : UseCaseSettings) (index : Nat) (name : String) : Node :=
  let middle := s.useCaseStartY + Float32.ofNat index * s.useCaseSpacing
  .labelled (useCaseId name) name .useCase
    ⟨s.useCaseX - s.useCaseWidth / 2.0, middle - s.useCaseHeight / 2.0, s.useCaseWidth,
      s.useCaseHeight⟩

/-- The nodes of a diagram, actors first. -/
def nodes (s : UseCaseSettings) (d : UseCaseDiagram) : Catalog Node :=
  Node.catalog (d.actors.toList.mapIdx s.actorNode ++ d.useCases.toList.mapIdx s.useCaseNode)

/-- The width of the canvas. -/
def canvasWidth (s : UseCaseSettings) (nodes : Catalog Node) : Float32 :=
  Scene.furthest nodes (fun box => box.right + s.margin) s.minWidth

/-- The height of the canvas. -/
def canvasHeight (s : UseCaseSettings) (d : UseCaseDiagram) : Float32 :=
  let actorsEnd := s.actorStartY + Float32.ofNat d.actors.size * s.actorSpacing
  let useCasesEnd := s.useCaseStartY + Float32.ofNat d.useCases.size * s.useCaseSpacing
  Single.greater (Single.greater actorsEnd useCasesEnd) s.minHeight + s.margin

end UseCaseSettings

namespace Association

/-- The edge of an association between two nodes. -/
def edge (a : Association) (settings : Settings) (nodes : Catalog Node) (actor useCase : Node) :
    Edge :=
  let ends := Attachment.select actor.box useCase.box settings.attachment
  let obstacles := Obstacle.excluding (Scene.obstacles nodes) [actor.id, useCase.id]
  let connector :=
    Connector.mk ends.start ends.finish obstacles settings.useCase.route settings.router
  { id := a.id
    source := actor.id
    target := useCase.id
    points := connector.route
    arrow := some (.ofAsync a.isAsync) }

/-- The edge of an association, none when one of its ends has no node. -/
def edge? (a : Association) (settings : Settings) (nodes : Catalog Node) : Option Edge :=
  match nodes.find? (UseCaseSettings.actorId a.actor),
    nodes.find? (UseCaseSettings.useCaseId a.useCase) with
  | some actor, some useCase => some (a.edge settings nodes actor useCase)
  | _, _ => none

end Association

/-- The scene of a use case diagram. -/
def UseCaseDiagram.scene (d : UseCaseDiagram) (settings : Settings) : Scene :=
  let nodes := settings.useCase.nodes d
  { kind := .useCase
    width := settings.useCase.canvasWidth nodes
    height := settings.useCase.canvasHeight d
    nodes := nodes
    edges := d.associations.filterMap fun a => a.edge? settings nodes }

end DiagramLayout
