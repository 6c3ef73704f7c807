import DiagramLayout.Route.Search

/-!
# Search by scanning a list

The plain form of the search on a grid. The poses that wait stand in a list in the order in which
they entered it; each time the first pose of least estimate is taken out and expanded. A pose that
gets cheaper while it waits keeps its place, any other goes to the end. Steps, costs, goal and limit
are those of `Search`.
-/

namespace DiagramLayout

/-- The state of a search by scanning: the labels, without tickets, and the poses that wait. -/
structure Scan where
  labels : Labels
  waiting : List Pose

namespace Scan

/-- The search that has reached its start only. -/
def initial (q : Quest) : Scan where
  labels := Labels.put (Array.replicate q.poseCount none) q q.startPose ⟨0.0, none, none⟩
  waiting := [q.startPose]

/-- The cost of a pose and the distance that is left from it. -/
def estimate (q : Quest) (labels : Labels) (p : Pose) : Float32 :=
  labels.cost q p + q.remaining p.cell

/-- The first pose of least estimate, `best` being the first of them so far. -/
def leastFrom (q : Quest) (labels : Labels) (best : Pose) : List Pose → Pose
  | [] => best
  | p :: rest =>
    if estimate q labels p < estimate q labels best then leastFrom q labels p rest
    else leastFrom q labels best rest

/-- Reaches a neighbour at a cost: nothing happens unless that is less than its cost so far. -/
def relax (q : Quest) (origin : Pose) (cost : Float32) (s : Scan) (move : Pose × Float32) : Scan :=
  let tentative := cost + move.2
  if s.labels.cost q move.1 ≤ tentative then s
  else
    ⟨s.labels.put q move.1 ⟨tentative, some origin, none⟩,
      if move.1 ∈ s.waiting then s.waiting else s.waiting ++ [move.1]⟩

/-- Reaches all neighbours of a pose. -/
def expand (q : Quest) (s : Scan) (p : Pose) : Scan :=
  (q.moves p).foldl (relax q p (s.labels.cost q p)) s

/-- Expands at most `budget` poses; answers with the pose at which the goal is met and the labels at
that time. -/
def run (q : Quest) : Nat → Scan → Option (Pose × Labels)
  | budget, ⟨labels, waiting⟩ =>
    match waiting with
    | [] => none
    | first :: others =>
      let p := leastFrom q labels first others
      if p.cell = q.goal then some (p, labels)
      else
        match budget with
        | 0 => none
        | budget + 1 => run q budget (expand q ⟨labels, waiting.erase p⟩ p)

end Scan

/-- The answer of the search by scanning: the cells of the way that it finds, if it finds one. -/
def Quest.scan? (q : Quest) : Option (Option (List Cell)) :=
  q.answer? (Scan.run q q.tuning.maxExpansions (.initial q))

end DiagramLayout
