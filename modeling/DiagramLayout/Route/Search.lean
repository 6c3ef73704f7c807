import DiagramLayout.Route.Frontier
import DiagramLayout.Route.Grid
import DiagramLayout.Route.Tuning
import DiagramLayout.Single.Order

/-!
# Best-first search on a routing grid

A quest asks for a way from one cell of a grid to another. A step costs one, more beside blocked
cells, more for a turn and still more for a turn back; the first step costs more when it leaves the
preferred heading. The search expands poses by least estimate, which is the cost so far plus the
distance that is left, until it meets the goal, runs out of poses or reaches its limit.

Every pose that was reached has a label: its cost, the pose before it, and, while it waits in the
frontier, its ticket. A pose that gets cheaper while it waits keeps its ticket; the entry with its
former estimate is stale and skipped when it comes out.
-/

namespace DiagramLayout

/-- The task of finding a way between two cells. -/
structure Quest where
  grid : Grid
  start : Cell
  goal : Cell
  preferred : Option Heading
  tuning : RouteTuning

namespace Quest

/-- The cost of a step along `h` from a pose to a cell. -/
def stepCost (q : Quest) (p : Pose) (h : Heading) (target : Cell) : Float32 :=
  let plain := 1.0 + Float32.ofNat (q.grid.crowding target) * q.tuning.proximityPenalty
  let turned := if p.heading.any (· ≠ h) then plain + q.tuning.turnPenalty else plain
  let reversed := if p.heading = some h.opposite then turned + q.tuning.uturnPenalty else turned
  if p.heading.isNone && q.preferred.any (· ≠ h) then reversed + q.tuning.startDirectionPenalty
  else reversed

/-- The poses one step from a pose, each with the cost of its step. -/
def moves (q : Quest) (p : Pose) : List (Pose × Float32) :=
  Heading.all.filterMap fun h =>
    (q.grid.open? p.cell h).map fun c => (⟨c, some h⟩, q.stepCost p h c)

/-- The number of steps that a cell is away from the goal when nothing is blocked. -/
def distance (q : Quest) (c : Cell) : Nat :=
  ((c.col : Int) - q.goal.col).natAbs + ((c.row : Int) - q.goal.row).natAbs

/-- The distance to the goal as a cost. -/
def remaining (q : Quest) (c : Cell) : Float32 :=
  Float32.ofNat (q.distance c)

/-- The place of an estimate in the order of expansion. An estimate that is not a number comes
before all numbers when it arises from infinite penalties, and behind them when a penalty itself is
not a number: the value that arithmetic makes has its sign set, the one that is written has not. -/
def rank (q : Quest) (estimate : Float32) : Int :=
  if estimate.isNaN && q.tuning.isUndefined then 0x80000000 else Single.rank estimate

/-- The entry of a pose that is reached at a cost. -/
def entry (q : Quest) (cost : Float32) (ticket : Nat) (p : Pose) : Entry :=
  let estimate := cost + q.remaining p.cell
  ⟨estimate, q.rank estimate, ticket, p⟩

/-- The pose that the search starts from. -/
def startPose (q : Quest) : Pose :=
  ⟨q.start, none⟩

/-- The place of a pose among all poses of the grid. -/
def index (q : Quest) (p : Pose) : Nat :=
  q.grid.lattice.index p.cell * Pose.perCell + p.slot

/-- The number of poses of the grid. -/
def poseCount (q : Quest) : Nat :=
  q.grid.lattice.size * Pose.perCell

end Quest

/-- What is known of a pose that was reached. -/
structure Label where
  cost : Float32
  parent : Option Pose
  ticket : Option Nat

/-- The labels of a search by the index of their pose. -/
abbrev Labels :=
  Array (Option Label)

namespace Labels

/-- The label of a pose. -/
def find? (labels : Labels) (q : Quest) (p : Pose) : Option Label :=
  (labels[q.index p]?).join

/-- The cost of a pose, infinite when it was not reached. -/
def cost (labels : Labels) (q : Quest) (p : Pose) : Float32 :=
  match labels.find? q p with
  | some label => label.cost
  | none => Single.infinite

/-- The pose before a pose. -/
def parent? (labels : Labels) (q : Quest) (p : Pose) : Option Pose :=
  (labels.find? q p).bind Label.parent

/-- The ticket of a pose that waits in the frontier. -/
def ticket? (labels : Labels) (q : Quest) (p : Pose) : Option Nat :=
  (labels.find? q p).bind Label.ticket

/-- The labels with a new label for a pose. -/
def put (labels : Labels) (q : Quest) (p : Pose) (label : Label) : Labels :=
  labels.setIfInBounds (q.index p) (some label)

/-- The labels with a pose taken out of the frontier. -/
def close (labels : Labels) (q : Quest) (p : Pose) : Labels :=
  labels.modify (q.index p) (Option.map fun label => ⟨label.cost, label.parent, none⟩)

end Labels

/-- The state of a search: the labels, the last ticket drawn and the frontier. -/
structure Search where
  labels : Labels
  lastTicket : Nat
  frontier : Frontier

namespace Search

/-- The search that has reached its start only. -/
def initial (q : Quest) : Search where
  labels := Labels.put (Array.replicate q.poseCount none) q q.startPose ⟨0.0, none, some 0⟩
  lastTicket := 0
  frontier := Frontier.push .empty (q.entry 0.0 0 q.startPose)

/-- Whether an entry is the newest one of a pose that waits. -/
def isLive (q : Quest) (labels : Labels) (e : Entry) : Bool :=
  labels.ticket? q e.pose == some e.ticket
    && !(labels.cost q e.pose + q.remaining e.pose.cell < e.estimate)

/-- The first live entry of a frontier, and the frontier behind it. -/
def nextLive? (q : Quest) (labels : Labels) (frontier : Frontier) : Option (Entry × Frontier) :=
  match _h : frontier.pop? with
  | none => none
  | some (e, rest) => if isLive q labels e then some (e, rest) else nextLive? q labels rest
termination_by frontier.size
decreasing_by exact Frontier.size_of_pop? _h

/-- Reaches a neighbour at a cost: nothing happens unless that is less than its cost so far. -/
def relax (q : Quest) (origin : Pose) (cost : Float32) : Search → Pose × Float32 → Search
  | ⟨labels, lastTicket, frontier⟩, (target, step) =>
    let tentative := cost + step
    if labels.cost q target ≤ tentative then ⟨labels, lastTicket, frontier⟩
    else
      let ticket := (labels.ticket? q target).getD (lastTicket + 1)
      let drawn := if (labels.ticket? q target).isSome then lastTicket else lastTicket + 1
      ⟨labels.put q target ⟨tentative, some origin, some ticket⟩, drawn,
        frontier.push (q.entry tentative ticket target)⟩

/-- Reaches all neighbours of a pose. -/
def expand (q : Quest) (s : Search) (p : Pose) : Search :=
  (q.moves p).foldl (relax q p (s.labels.cost q p)) s

/-- Expands at most `budget` poses; answers with the pose at which the goal is met and the labels at
that time. -/
def run (q : Quest) : Nat → Search → Option (Pose × Labels)
  | budget, ⟨labels, lastTicket, frontier⟩ =>
    match nextLive? q labels frontier with
    | none => none
    | some (e, rest) =>
      let closed := labels.close q e.pose
      if e.pose.cell = q.goal then some (e.pose, closed)
      else
        match budget with
        | 0 => none
        | budget + 1 => run q budget (expand q ⟨closed, lastTicket, rest⟩ e.pose)

end Search

namespace Labels

/-- The cells from the start to a pose, in front of `after`, by way of the poses before it. Where the
poses before it run in a circle, the way back goes on without end and there is no answer. -/
def trail? (labels : Labels) (q : Quest) (p : Pose) (after : List Cell) : Option (List Cell) :=
  match labels.parent? q p with
  | none => some (p.cell :: after)
  | some before => labels |>.trail? q before (p.cell :: after)
partial_fixpoint

end Labels

namespace Quest

/-- The pose at which the search meets the goal, with the labels at that time. -/
def meet? (q : Quest) : Option (Pose × Labels) :=
  Search.run q q.tuning.maxExpansions (Search.initial q)

/-- The answer of a search that ends with `met`: the cells of a way, or none where it meets the goal
nowhere. There is no answer where the way back does not end. -/
def answer? (q : Quest) (met : Option (Pose × Labels)) : Option (Option (List Cell)) :=
  match met with
  | none => some none
  | some (p, labels) => (labels.trail? q p []).map some

/-- The answer of the search: the cells of the way that it finds, if it finds one. -/
def solve? (q : Quest) : Option (Option (List Cell)) :=
  q.answer? q.meet?

end Quest

end DiagramLayout
