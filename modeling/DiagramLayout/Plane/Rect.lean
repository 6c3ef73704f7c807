import DiagramLayout.Plane.Point
import DiagramLayout.Single.Order

/-!
# Rectangles and obstacles

Rectangles with sides along the axes, given by their upper left corner, width and height. A
rectangle contains its border, and two rectangles that only touch do not intersect. An obstacle is a
rectangle that connectors keep out of, with the name of the node that owns it.
-/

namespace DiagramLayout

/-- A rectangle with sides along the axes. -/
structure Rect where
  x : Float32
  y : Float32
  width : Float32
  height : Float32
deriving DecidableEq, Inhabited

namespace Rect

/-- The square with sides of length `2 · radius` around a point. -/
def around (center : Point) (radius : Float32) : Rect :=
  ⟨center.x - radius, center.y - radius, radius * 2.0, radius * 2.0⟩

/-- The right end of the rectangle. -/
def right (r : Rect) : Float32 :=
  r.x + r.width

/-- The lower end of the rectangle. -/
def bottom (r : Rect) : Float32 :=
  r.y + r.height

/-- The middle of the rectangle. -/
def center (r : Rect) : Point :=
  ⟨r.x + r.width / 2.0, r.y + r.height / 2.0⟩

/-- The rectangle grown by `padding` on every side. -/
def inflate (r : Rect) (padding : Float32) : Rect :=
  ⟨r.x - padding, r.y - padding, r.width + padding * 2.0, r.height + padding * 2.0⟩

/-- Whether the point lies in the rectangle or on its border. -/
def contains (r : Rect) (p : Point) : Bool :=
  r.x ≤ p.x && p.x ≤ r.right && r.y ≤ p.y && p.y ≤ r.bottom

/-- Whether the interiors of the rectangles overlap. -/
def intersects (r s : Rect) : Bool :=
  r.x < s.right && s.x < r.right && r.y < s.bottom && s.y < r.bottom

/-- The box around a segment, at least one unit wide and high, grown by `padding`. -/
def ofSegment (p q : Point) (padding : Float32) : Rect :=
  (Rect.mk (Single.lesser p.x q.x) (Single.lesser p.y q.y) (Single.greater (p.x - q.x).abs 1.0)
    (Single.greater (p.y - q.y).abs 1.0)).inflate padding

end Rect

/-- A rectangle to be avoided. -/
structure Obstacle where
  owner : String
  rect : Rect
deriving DecidableEq

namespace Obstacle

/-- The obstacles whose owner is none of `owners`. -/
def excluding (obstacles : List Obstacle) (owners : List String) : List Obstacle :=
  obstacles.filter fun o => !owners.contains o.owner

end Obstacle

end DiagramLayout
