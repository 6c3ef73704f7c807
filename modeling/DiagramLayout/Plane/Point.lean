/-!
# Points

Points of the plane in single precision, with `x` growing to the right and `y` downwards. Two
points are close when both coordinates differ by at most `tolerance`.
-/

namespace DiagramLayout

/-- A point of the plane. -/
structure Point where
  x : Float32
  y : Float32
deriving DecidableEq, Inhabited

namespace Point

/-- The greatest difference of coordinates at which two points count as one. -/
def tolerance : Float32 :=
  1e-4

/-- The sum of the distances along the two axes. -/
def manhattan (p q : Point) : Float32 :=
  (p.x - q.x).abs + (p.y - q.y).abs

/-- Whether the points differ by at most the tolerance along both axes. -/
def isClose (p q : Point) : Bool :=
  (p.x - q.x).abs ≤ tolerance && (p.y - q.y).abs ≤ tolerance

/-- The point moved by `dx` and `dy`. -/
def offset (p : Point) (dx dy : Float32) : Point :=
  ⟨p.x + dx, p.y + dy⟩

end Point

end DiagramLayout
