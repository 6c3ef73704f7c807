import DiagramLayout.Plane.Point

/-!
# Polylines

A polyline is the list of its points. `withElbows` leads one along given stops in axis-aligned legs,
turning a diagonal leg into two. `simplify` drops points that repeat the one before, and then the
middle of every straight run.
-/

namespace DiagramLayout.Polyline

/-- The corner of a diagonal leg, horizontal first or vertical first; nothing for a leg that is
straight. -/
def elbow (last next : Point) (horizontalFirst : Bool) : List Point :=
  if Point.tolerance < (next.x - last.x).abs && Point.tolerance < (next.y - last.y).abs then
    [if horizontalFirst then ⟨next.x, last.y⟩ else ⟨last.x, next.y⟩]
  else []

/-- The points behind `last` on a way along stops, each of which says how a diagonal leg to it
turns. -/
def withElbows (last : Point) : List (Point × Bool) → List Point
  | [] => []
  | (next, horizontalFirst) :: rest =>
    elbow last next horizontalFirst ++ next :: withElbows next rest

/-- The points that are not close to the point kept before them, which starts as `last`. -/
def dropRepeats (last : Point) : List Point → List Point
  | [] => []
  | p :: rest => if last.isClose p then dropRepeats last rest else p :: dropRepeats p rest

/-- Whether three points stand in one column or in one row. -/
def isStraight (p q r : Point) : Bool :=
  ((p.x - q.x).abs ≤ Point.tolerance && (q.x - r.x).abs ≤ Point.tolerance)
    || ((p.y - q.y).abs ≤ Point.tolerance && (q.y - r.y).abs ≤ Point.tolerance)

/-- The points without those between the point kept before them, which starts as `last`, and the
point after them. -/
def dropMiddles (last : Point) : List Point → List Point
  | [] => []
  | [p] => [p]
  | p :: next :: rest =>
    if isStraight last p next then dropMiddles last (next :: rest)
    else p :: dropMiddles p (next :: rest)

/-- The polyline without repeated points and without the middle of straight runs. -/
def simplify : List Point → List Point
  | [] => []
  | p :: rest => p :: dropMiddles p (dropRepeats p rest)

end DiagramLayout.Polyline
