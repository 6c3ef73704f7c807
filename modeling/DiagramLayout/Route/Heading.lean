import DiagramLayout.Plane.Anchor

/-!
# Cells and headings

The routing grid has cells in columns and rows, and a step leads from a cell to one of its four
neighbours along a heading. A pose is a cell together with the heading along which it was entered;
the pose that a search starts from has none.
-/

namespace DiagramLayout

/-- A vertex of the routing grid by column and row. -/
structure Cell where
  col : Nat
  row : Nat
deriving DecidableEq

/-- The direction of a step. -/
inductive Heading
  | right
  | left
  | down
  | up
deriving DecidableEq

namespace Heading

/-- The headings in the order in which a search tries them. -/
def all : List Heading :=
  [right, left, down, up]

/-- The heading of the way back. -/
def opposite : Heading → Heading
  | right => left
  | left => right
  | down => up
  | up => down

/-- The heading that points out of a side. -/
def ofSide : Side → Heading
  | .right => right
  | .left => left
  | .bottom => down
  | .top => up

/-- The place of a heading among all headings. -/
def slot : Heading → Nat
  | right => 0
  | left => 1
  | down => 2
  | up => 3

end Heading

/-- A cell and the heading along which it was entered. -/
structure Pose where
  cell : Cell
  heading : Option Heading
deriving DecidableEq

namespace Pose

/-- The number of poses at one cell. -/
def perCell : Nat :=
  5

/-- The place of a pose among those at its cell; the pose without heading comes last. -/
def slot (p : Pose) : Nat :=
  match p.heading with
  | some h => h.slot
  | none => 4

end Pose

end DiagramLayout
