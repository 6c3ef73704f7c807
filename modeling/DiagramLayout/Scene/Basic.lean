import DiagramLayout.Catalog
import DiagramLayout.Diagram.Class
import DiagramLayout.Diagram.Kind
import DiagramLayout.Plane.Rect
import DiagramLayout.Single.Rounding
import DiagramLayout.Text.Extent

/-!
# Scenes

A scene is a diagram with all its places and sizes: nodes with their boxes, edges with their points,
and what only some kinds of diagrams have, the lifelines and activation bars of a sequence diagram
and the compartments of the boxes of a class diagram.
-/

namespace DiagramLayout

/-- What a node is drawn as. -/
inductive NodeShape
  | actor
  | useCase
  | participant
  | classBox
  | state
  | initial
  | final
deriving DecidableEq

/-- The name of a shape. -/
def NodeShape.name : NodeShape → String
  | actor => "actor"
  | useCase => "usecase"
  | participant => "participant"
  | classBox => "class"
  | state => "state"
  | initial => "start"
  | final => "end"

/-- A node with its box. -/
structure Node where
  id : String
  label : String
  shape : NodeShape
  box : Rect
  direction : TextDirection
deriving DecidableEq

namespace Node

/-- The node of a label, whose direction is that of the label. -/
def labelled (id label : String) (shape : NodeShape) (box : Rect) : Node :=
  ⟨id, label, shape, box, .ofText label⟩

/-- The obstacle that the node is to connectors of other nodes. -/
def obstacle (n : Node) : Obstacle :=
  ⟨n.id, n.box⟩

/-- The catalog of nodes by their ids; of two nodes with one id the later stays. -/
def catalog (nodes : List Node) : Catalog Node :=
  .ofList (nodes.map fun n => (n.id, n))

end Node

/-- The head of an arrow. -/
inductive ArrowHead
  | sync
  | async
deriving DecidableEq

namespace ArrowHead

/-- The head for an edge that is or is not asynchronous. -/
def ofAsync (isAsync : Bool) : ArrowHead :=
  if isAsync then async else sync

/-- The name of a head. -/
def name : ArrowHead → String
  | sync => "sync"
  | async => "async"

end ArrowHead

/-- The label of an edge: where it is drawn, and the box that was kept free for it, if any. -/
structure EdgeLabel where
  text : String
  position : Point
  box : Option Rect
deriving DecidableEq

/-- An edge with its points. -/
structure Edge where
  id : String
  source : String
  target : String
  points : List Point
  label : Option EdgeLabel := none
  arrow : Option ArrowHead := none
  startMarker : Option Marker := none
  endMarker : Option Marker := none
  isSelfLoop : Bool := false
deriving DecidableEq

/-- The line on which the life of a participant runs down. -/
structure Lifeline where
  participant : String
  x : Float32
  top : Float32
  bottom : Float32
deriving DecidableEq

/-- The bar of an activation on a lifeline. -/
structure ActivationBar where
  id : String
  participant : String
  box : Rect
deriving DecidableEq

/-- The part of a class box that a row belongs to. -/
inductive Section
  | attributes
  | methods
deriving DecidableEq

/-- The name of a part. -/
def Section.name : Section → String
  | attributes => "attributes"
  | methods => "methods"

/-- A row of a class box: a member, shortened to the width of the box. -/
structure MemberRow where
  part : Section
  text : String
  position : Point
  direction : TextDirection
deriving DecidableEq

/-- The inside of a class box: the place of its title, the heights of its dividers and its rows. -/
structure Compartments where
  className : String
  title : Point
  headerDivider : Float32
  membersDivider : Float32
  rows : List MemberRow
deriving DecidableEq

/-- A diagram with all its places and sizes. -/
structure Scene where
  kind : DiagramKind
  width : Float32
  height : Float32
  nodes : Catalog Node
  edges : List Edge
  lifelines : List Lifeline := []
  bars : List ActivationBar := []
  compartments : List Compartments := []

namespace Scene

/-- The nodes as obstacles, in order. -/
def obstacles (nodes : Catalog Node) : List Obstacle :=
  nodes.values.map Node.obstacle

/-- The greatest of `least` and the values of all nodes. -/
def furthest (nodes : Catalog Node) (value : Rect → Float32) (least : Float32) : Float32 :=
  nodes.values.foldl (fun most n => Single.greater most (value n.box)) least

/-- The number of columns in which items fill a square. -/
def columns (count : Nat) : Nat :=
  max 1 (Single.toNat64 (Single.ceil (Float32.ofNat (max 1 count)).sqrt))

end Scene

end DiagramLayout
