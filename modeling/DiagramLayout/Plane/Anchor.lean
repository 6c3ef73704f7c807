import DiagramLayout.Plane.Rect

/-!
# Anchors

An anchor is an end of a connector: a point, with the side of a rectangle that it sits on. A free
anchor has no side.
-/

namespace DiagramLayout

/-- A side of a rectangle. -/
inductive Side
  | top
  | right
  | bottom
  | left
deriving DecidableEq

namespace Side

/-- The order in which sides are tried. -/
def searchOrder : List Side :=
  [left, right, top, bottom]

/-- The outward unit vector of a side. -/
def normal : Side → Point
  | top => ⟨0.0, -1.0⟩
  | right => ⟨1.0, 0.0⟩
  | bottom => ⟨0.0, 1.0⟩
  | left => ⟨-1.0, 0.0⟩

/-- Whether the outward vector of the side is horizontal. -/
def isHorizontal : Side → Bool
  | left => true
  | right => true
  | top => false
  | bottom => false

/-- The name of a side. -/
def name : Side → String
  | top => "top"
  | right => "right"
  | bottom => "bottom"
  | left => "left"

/-- The side of a name. -/
def ofName? (name : String) : Option Side :=
  searchOrder.find? fun s => s.name == name

end Side

/-- An end of a connector. -/
structure Anchor where
  point : Point
  side : Option Side
deriving DecidableEq

namespace Anchor

/-- The anchor at a point of a side. -/
def onSide (x y : Float32) (side : Side) : Anchor :=
  ⟨⟨x, y⟩, some side⟩

/-- The outward vector of the side, zero for a free anchor. -/
def normal (a : Anchor) : Point :=
  (a.side.map Side.normal).getD ⟨0.0, 0.0⟩

/-- The anchor moved by `dx` and `dy` along with its side. -/
def shifted (a : Anchor) (dx dy : Float32) : Anchor :=
  ⟨a.point.offset dx dy, a.side⟩

/-- Whether a connector leaves the anchor horizontally; a free anchor counts as such. -/
def isHorizontal (a : Anchor) : Bool :=
  (a.side.map Side.isHorizontal).getD true

end Anchor

end DiagramLayout
