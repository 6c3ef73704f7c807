import DiagramLayout.Plane.Rect
import DiagramLayout.Route.Heading
import DiagramLayout.Single.Rounding

/-!
# The lattice of a routing grid

A lattice is a rectangular array of vertices, one pitch apart, of which the first stands at
`corner`. `cover?` lays one over some points and rectangles with a margin around them, such that a
given origin falls on a vertex; it refuses an extent that is not finite or has too many vertices.
-/

namespace DiagramLayout

/-- The least and the greatest coordinates of a figure. -/
structure Extent where
  minX : Float32
  minY : Float32
  maxX : Float32
  maxY : Float32

namespace Extent

/-- The extent of no point at all. -/
def empty : Extent :=
  ⟨Single.largest, Single.largest, -Single.largest, -Single.largest⟩

/-- The extent grown to reach a rectangle given by its ends. -/
def reach (e : Extent) (left top right bottom : Float32) : Extent :=
  ⟨Single.lesser e.minX left, Single.lesser e.minY top, Single.greater e.maxX right,
    Single.greater e.maxY bottom⟩

/-- The extent of some points and rectangles. -/
def of (points : List Point) (rects : List Rect) : Extent :=
  rects.foldl (fun e r => e.reach r.x r.y r.right r.bottom)
    (points.foldl (fun e p => e.reach p.x p.y p.x p.y) empty)

/-- Whether all ends of the extent are finite. -/
def isFinite (e : Extent) : Bool :=
  e.minX.isFinite && e.minY.isFinite && e.maxX.isFinite && e.maxY.isFinite

end Extent

/-- Vertices in columns and rows, one pitch apart. -/
structure Lattice where
  pitch : Float32
  corner : Point
  cols : Nat
  rows : Nat
deriving DecidableEq

namespace Lattice

/-- The greatest number of vertices of a lattice that is searched. -/
def maxCells : Nat :=
  4000000

/-- The first vertex at or before `low` along an axis with a vertex at `origin`. -/
def axisStart (origin low pitch : Float32) : Float32 :=
  origin - Single.ceil ((origin - low) / pitch) * pitch

/-- The number of vertices, at least two, that reach from `start` to `high`. -/
def axisCount (start high pitch : Float32) : Float32 :=
  Single.greater (Single.ceil ((high - start) / pitch) + 1.0) 2.0

/-- A lattice over some points and rectangles, with a vertex on `origin`. -/
def cover? (origin : Point) (points : List Point) (rects : List Rect) (gridSize margin : Float32) :
    Option Lattice :=
  let pitch := Single.greater gridSize 1.0
  let extent := Extent.of points rects
  if extent.isFinite then
    let startX := axisStart origin.x (extent.minX - margin) pitch
    let startY := axisStart origin.y (extent.minY - margin) pitch
    let cols := axisCount startX (extent.maxX + margin) pitch
    let rows := axisCount startY (extent.maxY + margin) pitch
    if cols * rows ≤ Float32.ofNat maxCells then
      some ⟨pitch, ⟨startX, startY⟩, (Single.toInt32 cols).toNat, (Single.toInt32 rows).toNat⟩
    else none
  else none

/-- The number of vertices. -/
def size (l : Lattice) : Nat :=
  l.cols * l.rows

/-- The place of a cell when the rows are read one after another. -/
def index (l : Lattice) (c : Cell) : Nat :=
  c.row * l.cols + c.col

/-- Whether the lattice has the cell. -/
def inBounds (l : Lattice) (c : Cell) : Bool :=
  c.col < l.cols && c.row < l.rows

/-- The point at which a cell stands. -/
def vertex (l : Lattice) (c : Cell) : Point :=
  ⟨l.corner.x + Float32.ofNat c.col * l.pitch, l.corner.y + Float32.ofNat c.row * l.pitch⟩

/-- The vertex nearest to `x` among `count` vertices along an axis. -/
def nearestOnAxis (x start pitch : Float32) (count : Nat) : Nat :=
  (max 0 (min (Single.toInt32 (Single.nearest ((x - start) / pitch))) (count - 1))).toNat

/-- The cell nearest to a point. -/
def nearestCell (l : Lattice) (p : Point) : Cell :=
  ⟨nearestOnAxis p.x l.corner.x l.pitch l.cols, nearestOnAxis p.y l.corner.y l.pitch l.rows⟩

/-- The cell one step along a heading, unless it would leave the lattice. -/
def step? (l : Lattice) (c : Cell) : Heading → Option Cell
  | .right => if c.col + 1 < l.cols then some ⟨c.col + 1, c.row⟩ else none
  | .left => if 0 < c.col then some ⟨c.col - 1, c.row⟩ else none
  | .down => if c.row + 1 < l.rows then some ⟨c.col, c.row + 1⟩ else none
  | .up => if 0 < c.row then some ⟨c.col, c.row - 1⟩ else none

/-- The numbers from one below `n` to one above it. -/
def beside (n : Nat) : List Nat :=
  if n = 0 then [n, n + 1] else [n - 1, n, n + 1]

/-- The at most eight cells around a cell. -/
def around (l : Lattice) (c : Cell) : List Cell :=
  ((beside c.row).flatMap fun row => (beside c.col).map fun col => Cell.mk col row).filter
    fun d => d != c && l.inBounds d

/-- The vertices along an axis that may lie between `low` and `high`. -/
def axisRange (low high start pitch : Float32) (count : Nat) : List Nat :=
  let first := max 0 (Single.toInt32 (Single.floor ((low - start) / pitch)))
  let last := min (Single.toInt32 (Single.ceil ((high - start) / pitch))) (count - 1)
  List.range' first.toNat (last + 1 - first).toNat

end Lattice

end DiagramLayout
