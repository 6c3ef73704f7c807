import DiagramLayout.Plane.Rect
import DiagramLayout.Route.Lattice

/-!
# Routing grids

A routing grid is a lattice with a mark on every vertex that is blocked. A rectangle blocks the
vertices that it contains, its border included. Two cells can be freed again, for the ends of a
connector.
-/

namespace DiagramLayout

/-- A lattice and the marks of its cells, row after row. -/
structure Grid where
  lattice : Lattice
  blocked : Array Bool

namespace Grid

/-- Marks the cells of one row that stand in a rectangle. -/
def markRow (l : Lattice) (r : Rect) (cols : List Nat) (marks : Array Bool) (row : Nat) :
    Array Bool :=
  cols.foldl (fun marks col =>
    if r.contains (l.vertex ⟨col, row⟩) then marks.setIfInBounds (l.index ⟨col, row⟩) true
    else marks) marks

/-- Marks the cells that stand in a rectangle. -/
def markRect (l : Lattice) (marks : Array Bool) (r : Rect) : Array Bool :=
  let cols := Lattice.axisRange r.x r.right l.corner.x l.pitch l.cols
  let rows := Lattice.axisRange r.y r.bottom l.corner.y l.pitch l.rows
  rows.foldl (markRow l r cols) marks

/-- The grid on a lattice in which some rectangles block their cells. -/
def ofRects (l : Lattice) (rects : List Rect) : Grid :=
  ⟨l, rects.foldl (markRect l) (Array.replicate l.size false)⟩

/-- The grid over some points and rectangles with a vertex on `origin`; the rectangles block their
cells. -/
def build? (origin : Point) (points : List Point) (rects : List Rect)
    (gridSize margin : Float32) : Option Grid :=
  (Lattice.cover? origin points rects gridSize margin).map fun l => ofRects l rects

/-- Whether a cell is blocked. -/
def isBlocked (g : Grid) (c : Cell) : Bool :=
  g.blocked.getD (g.lattice.index c) false

/-- The grid with one cell freed. -/
def free (g : Grid) (c : Cell) : Grid :=
  ⟨g.lattice, g.blocked.setIfInBounds (g.lattice.index c) false⟩

/-- The number of blocked cells around a cell. -/
def crowding (g : Grid) (c : Cell) : Nat :=
  (g.lattice.around c).countP g.isBlocked

/-- The free cell one step along a heading. -/
def open? (g : Grid) (c : Cell) (h : Heading) : Option Cell :=
  (g.lattice.step? c h).filter fun d => !g.isBlocked d

end Grid

end DiagramLayout
