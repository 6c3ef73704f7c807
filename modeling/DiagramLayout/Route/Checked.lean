import DiagramLayout.Route.Connector

/-!
# Routing with checked numbers

The routing of a connector on columns and rows that are signed numbers of 32 bits. A number that does
not fit in 32 bits, a place outside an array and an empty interval to hold a number to are faults, and
the first fault ends the routing. Places are compared with the ends of the lattice, and read and
written, in the order and to the extent in which the routing needs them; estimates, costs and the
answer are those of `Connector.route?`.
-/

namespace DiagramLayout

/-- What ends a computation with checked numbers. -/
inductive Fault
  | overflow
  | outside
  | inverted
deriving DecidableEq

/-- The outcome of a computation with checked numbers. -/
abbrev Checked (α : Type) :=
  Except Fault α

namespace Checked

/-- The number, provided that it has 32 bits. -/
def narrow (n : Int) : Checked Int :=
  if -0x80000000 ≤ n ∧ n ≤ 0x7fffffff then pure n else throw .overflow

/-- The number held to an interval, provided that the interval is not empty. -/
def clamp (n low high : Int) : Checked Int :=
  if low ≤ high then pure (max low (min n high)) else throw .inverted

/-- The item at a place. -/
def read {α : Type} (items : Array α) (i : Int) : Checked α :=
  if h : 0 ≤ i ∧ i.toNat < items.size then pure items[i.toNat] else throw .outside

/-- The items with the one at a place replaced. -/
def write {α : Type} (items : Array α) (i : Int) (item : α) : Checked (Array α) :=
  if h : 0 ≤ i ∧ i.toNat < items.size then pure (items.set i.toNat item h.2) else throw .outside

/-- The numbers from `first` to `last`. -/
def span (first last : Int) : List Int :=
  (List.range (last + 1 - first).toNat).map fun (k : Nat) => first + k

/-! ### Lattices -/

/-- The place of a cell when the rows are read one after another. -/
def index (l : Lattice) (col row : Int) : Checked Int := do
  let before ← narrow (row * l.cols)
  narrow (before + col)

/-- Whether the lattice has the cell. -/
def inBounds (l : Lattice) (col row : Int) : Bool :=
  0 ≤ col && 0 ≤ row && col < l.cols && row < l.rows

/-- The vertex nearest to `x` among `count` vertices along an axis. -/
def nearestOnAxis (x start pitch : Float32) (count : Nat) : Checked Nat := do
  let last ← narrow (count - 1)
  let place ← clamp (Single.toInt32 (Single.nearest ((x - start) / pitch))) 0 last
  return place.toNat

/-- The cell nearest to a point. -/
def nearestCell (l : Lattice) (p : Point) : Checked Cell := do
  let col ← nearestOnAxis p.x l.corner.x l.pitch l.cols
  let row ← nearestOnAxis p.y l.corner.y l.pitch l.rows
  return ⟨col, row⟩

/-- The vertices along an axis that may lie between `low` and `high`. -/
def axisSpan (low high start pitch : Float32) (count : Nat) : Checked (List Int) := do
  let last ← narrow (count - 1)
  return span (max 0 (Single.toInt32 (Single.floor ((low - start) / pitch))))
    (min (Single.toInt32 (Single.ceil ((high - start) / pitch))) last)

/-! ### Grids -/

/-- Marks a cell that stands in a rectangle. -/
def mark (l : Lattice) (r : Rect) (row : Int) (marks : Array Bool) (col : Int) :
    Checked (Array Bool) :=
  if r.contains (l.vertex ⟨col.toNat, row.toNat⟩) then do
    write marks (← index l col row) true
  else pure marks

/-- Marks the cells that stand in a rectangle. -/
def markRect (l : Lattice) (marks : Array Bool) (r : Rect) : Checked (Array Bool) := do
  let cols ← axisSpan r.x r.right l.corner.x l.pitch l.cols
  let rows ← axisSpan r.y r.bottom l.corner.y l.pitch l.rows
  rows.foldlM (fun marks row => cols.foldlM (mark l r row) marks) marks

/-- The grid over some points and rectangles with a vertex on `origin`; the rectangles block their
cells. -/
def build? (origin : Point) (points : List Point) (rects : List Rect) (gridSize margin : Float32) :
    Checked (Option Grid) :=
  match Lattice.cover? origin points rects gridSize margin with
  | none => pure none
  | some l => do
    let marks ← rects.foldlM (markRect l) (Array.replicate l.size false)
    return some ⟨l, marks⟩

/-- Whether a cell is blocked. -/
def isBlocked (g : Grid) (col row : Int) : Checked Bool := do
  read g.blocked (← index g.lattice col row)

/-- The grid with one cell freed. -/
def free (g : Grid) (c : Cell) : Checked Grid := do
  let marks ← write g.blocked (← index g.lattice c.col c.row) false
  return ⟨g.lattice, marks⟩

/-- Counts a cell around `c` that is blocked. -/
def countBlocked (g : Grid) (c : Cell) (row : Int) (count : Nat) (col : Int) : Checked Nat :=
  if (col = c.col ∧ row = c.row) ∨ ¬inBounds g.lattice col row then pure count
  else do
    let blocked ← isBlocked g col row
    return if blocked then count + 1 else count

/-- The number of blocked cells around a cell. -/
def crowding (g : Grid) (c : Cell) : Checked Nat := do
  let rows := span (← narrow (c.row - 1)) (← narrow (c.row + 1))
  let cols := span (← narrow (c.col - 1)) (← narrow (c.col + 1))
  rows.foldlM (fun count row => cols.foldlM (countBlocked g c row) count) 0

/-- The columns and rows that a step along a heading leads on. -/
def stride : Heading → Int × Int
  | .right => (1, 0)
  | .left => (-1, 0)
  | .down => (0, 1)
  | .up => (0, -1)

/-- The free cell one step along a heading. -/
def open? (g : Grid) (c : Cell) (h : Heading) : Checked (Option Cell) := do
  let col ← narrow (c.col + (stride h).1)
  let row ← narrow (c.row + (stride h).2)
  if inBounds g.lattice col row then
    let blocked ← isBlocked g col row
    return if blocked then none else some ⟨col.toNat, row.toNat⟩
  else return none

/-! ### Quests -/

/-- The cost of a step along `h` from a pose to a cell. -/
def stepCost (q : Quest) (p : Pose) (h : Heading) (target : Cell) : Checked Float32 := do
  let count ← crowding q.grid target
  let plain := 1.0 + Float32.ofNat count * q.tuning.proximityPenalty
  let turned := if p.heading.any (· ≠ h) then plain + q.tuning.turnPenalty else plain
  let reversed := if p.heading = some h.opposite then turned + q.tuning.uturnPenalty else turned
  return if p.heading.isNone && q.preferred.any (· ≠ h) then
    reversed + q.tuning.startDirectionPenalty else reversed

/-- The number of steps that a cell is away from the goal when nothing is blocked. -/
def distance (q : Quest) (c : Cell) : Checked Int := do
  let cols ← narrow ((c.col : Int) - q.goal.col)
  let rows ← narrow ((c.row : Int) - q.goal.row)
  narrow ((← narrow cols.natAbs) + (← narrow rows.natAbs))

/-- The distance to the goal as a cost. -/
def remaining (q : Quest) (c : Cell) : Checked Float32 := do
  return Float32.ofNat (← distance q c).toNat

/-- The entry of a pose that is reached at a cost. -/
def entry (q : Quest) (cost : Float32) (ticket : Nat) (p : Pose) : Checked Entry := do
  let estimate := cost + (← remaining q p.cell)
  return ⟨estimate, q.rank estimate, ticket, p⟩

/-- The place of a pose among all poses of the grid. -/
def poseIndex (q : Quest) (p : Pose) : Checked Int := do
  return (← index q.grid.lattice p.cell.col p.cell.row) * Pose.perCell + p.slot

/-! ### Labels -/

/-- The label of a pose. -/
def find (labels : Labels) (q : Quest) (p : Pose) : Checked (Option Label) := do
  read labels (← poseIndex q p)

/-- The cost of a pose, infinite when it was not reached. -/
def cost (labels : Labels) (q : Quest) (p : Pose) : Checked Float32 := do
  match ← find labels q p with
  | some label => return label.cost
  | none => return Single.infinite

/-- The ticket of a pose that waits in the frontier. -/
def ticket? (labels : Labels) (q : Quest) (p : Pose) : Checked (Option Nat) := do
  return (← find labels q p).bind Label.ticket

/-- The labels with a new label for a pose. -/
def put (labels : Labels) (q : Quest) (p : Pose) (label : Label) : Checked Labels := do
  write labels (← poseIndex q p) (some label)

/-- The labels with a pose taken out of the frontier. -/
def close (labels : Labels) (q : Quest) (p : Pose) : Checked Labels := do
  let found ← find labels q p
  write labels (← poseIndex q p) (found.map fun label => ⟨label.cost, label.parent, none⟩)

/-! ### Searches -/

/-- The search that has reached its start only. -/
def initial (q : Quest) : Checked Search := do
  let labels ← put (Array.replicate q.poseCount none) q q.startPose ⟨0.0, none, some 0⟩
  return ⟨labels, 0, .push .empty (← entry q 0.0 0 q.startPose)⟩

/-- Whether an entry is the newest one of a pose that waits. -/
def isLive (q : Quest) (labels : Labels) (e : Entry) : Checked Bool := do
  if (← ticket? labels q e.pose) == some e.ticket then
    return !((← cost labels q e.pose) + (← remaining q e.pose.cell) < e.estimate)
  else return false

/-- The first live entry of a frontier, and the frontier behind it. -/
def nextLive? (q : Quest) (labels : Labels) (frontier : Frontier) :
    Checked (Option (Entry × Frontier)) :=
  match _h : frontier.pop? with
  | none => pure none
  | some (e, rest) => do
    if ← isLive q labels e then return some (e, rest) else nextLive? q labels rest
termination_by frontier.size
decreasing_by exact Frontier.size_of_pop? _h

/-- Reaches a neighbour by a step: nothing happens unless it gets cheaper. -/
def relax (q : Quest) (origin : Pose) (known : Float32) (s : Search) (target : Pose)
    (step : Float32) : Checked Search := do
  let tentative := known + step
  if (← cost s.labels q target) ≤ tentative then return s
  else
    let waiting ← ticket? s.labels q target
    let ticket := waiting.getD (s.lastTicket + 1)
    let labels ← put s.labels q target ⟨tentative, some origin, some ticket⟩
    let drawn := if waiting.isSome then s.lastTicket else s.lastTicket + 1
    return ⟨labels, drawn, s.frontier.push (← entry q tentative ticket target)⟩

/-- Reaches the neighbour along a heading, if there is a free one. -/
def advance (q : Quest) (p : Pose) (known : Float32) (s : Search) (h : Heading) :
    Checked Search := do
  match ← open? q.grid p.cell h with
  | none => return s
  | some c => relax q p known s ⟨c, some h⟩ (← stepCost q p h c)

/-- Reaches all neighbours of a pose. -/
def expand (q : Quest) (s : Search) (p : Pose) : Checked Search := do
  Heading.all.foldlM (advance q p (← cost s.labels q p)) s

/-- Expands at most `budget` poses; answers with the pose at which the goal is met and the labels at
that time. -/
def run (q : Quest) : Nat → Search → Checked (Option (Pose × Labels))
  | budget, ⟨labels, lastTicket, frontier⟩ => do
    match ← nextLive? q labels frontier with
    | none => return none
    | some (e, rest) =>
      let closed ← close labels q e.pose
      if e.pose.cell = q.goal then return some (e.pose, closed)
      else
        match budget with
        | 0 => return none
        | budget + 1 => run q budget (← expand q ⟨closed, lastTicket, rest⟩ e.pose)

/-- The pose at which the search meets the goal, with the labels at that time. -/
def meet? (q : Quest) : Checked (Option (Pose × Labels)) := do
  run q q.tuning.maxExpansions (← initial q)

end Checked

namespace Labels

/-- The cells from the start to a pose, in front of `after`, by way of the poses before it, with the
places of the labels checked. -/
def checkedTrail? (labels : Labels) (q : Quest) (p : Pose) (after : List Cell) :
    Option (Checked (List Cell)) :=
  match Checked.find labels q p with
  | .error fault => some (.error fault)
  | .ok found =>
    match found.bind Label.parent with
    | none => some (.ok (p.cell :: after))
    | some before => labels |>.checkedTrail? q before (p.cell :: after)
partial_fixpoint

end Labels

namespace Checked

/-- The answer of the search: the cells of the way that it finds, if it finds one. There is no answer
where the way back does not end. -/
def solve? (q : Quest) : Option (Checked (Option (List Cell))) :=
  match meet? q with
  | .error fault => some (.error fault)
  | .ok none => some (.ok none)
  | .ok (some (p, labels)) => (labels.checkedTrail? q p []).map (Except.map some)

/-! ### Connectors -/

/-- The quest on a grid whose ends are freed. -/
def questOn (c : Connector) (g : Grid) : Checked Quest := do
  let start ← nearestCell g.lattice c.routingStart
  let goal ← nearestCell g.lattice c.routingFinish
  let freed ← free (← free g start) goal
  return ⟨freed, start, goal, c.start.side.map Heading.ofSide, c.tuning⟩

/-- The grid around the anchors and the obstacles, and the quest on it. -/
def quest? (c : Connector) : Checked (Option (Grid × Quest)) := do
  match ← build? c.routingStart
      [c.start.point, c.finish.point, c.routingStart, c.routingFinish] c.padded c.spacing.gridSize
      c.tuning.margin with
  | none => return none
  | some g => return some (g, ← questOn c g)

/-- The points between the stubs on the way found on the grid, if there is one. -/
def gridStops? (c : Connector) : Option (Checked (Option (List Point))) :=
  match quest? c with
  | .error fault => some (.error fault)
  | .ok none => some (.ok none)
  | .ok (some (g, q)) =>
    (solve? q).map (Except.map fun way => way.map fun cells =>
      cells.tail.dropLast.map g.lattice.vertex)

/-- The points of the connector. -/
def route? (c : Connector) : Option (Checked (List Point)) :=
  (gridStops? c).map (Except.map fun stops => Polyline.simplify (c.draft stops))

end Checked

end DiagramLayout
