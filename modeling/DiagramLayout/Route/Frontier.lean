import DiagramLayout.Route.Heading

/-!
# The frontier of a search

The frontier is a leftist heap of entries, each a pose with an estimate of the cost through it and
the ticket that the pose drew when it entered. The estimate of least rank comes out first, and of
equal ranks the earlier ticket.
-/

namespace DiagramLayout

/-- A pose in the frontier with its estimate, the rank of the estimate and its ticket. -/
structure Entry where
  estimate : Float32
  rank : Int
  ticket : Nat
  pose : Pose
deriving DecidableEq

namespace Entry

/-- Whether `a` comes out no later than `b`. -/
def atMost (a b : Entry) : Bool :=
  a.rank < b.rank || (a.rank == b.rank && a.ticket ≤ b.ticket)

end Entry

/-- A leftist tree; a branch keeps the length of its right spine. -/
inductive Frontier
  | empty
  | branch (spine : Nat) (top : Entry) (left right : Frontier)

namespace Frontier

/-- The length of the right spine. -/
def spine : Frontier → Nat
  | empty => 0
  | branch n _ _ _ => n

/-- The number of entries. -/
def size : Frontier → Nat
  | empty => 0
  | branch _ _ left right => left.size + right.size + 1

/-- A branch over two trees, the one with the longer spine to the left. -/
def join (top : Entry) (a b : Frontier) : Frontier :=
  if b.spine ≤ a.spine then branch (b.spine + 1) top a b else branch (a.spine + 1) top b a

/-- A join has the entries of both frontiers and the one on top. -/
theorem size_join (top : Entry) (a b : Frontier) :
  (join top a b).size = a.size + b.size + 1
  := by
  unfold join
  split
  · rfl
  · simp only [size]
    omega

/-- All entries of two frontiers. -/
def merge : Frontier → Frontier → Frontier
  | empty, b => b
  | branch n top left right, empty => branch n top left right
  | branch n a al ar, branch m b bl br =>
    if a.atMost b then join a al (merge ar (branch m b bl br))
    else join b bl (merge (branch n a al ar) br)
termination_by a b => a.size + b.size
decreasing_by all_goals simp only [size]; omega

/-- The frontier with one more entry. -/
def push (f : Frontier) (e : Entry) : Frontier :=
  merge (branch 1 e empty empty) f

/-- The entry that comes out first, and the frontier without it. -/
def pop? : Frontier → Option (Entry × Frontier)
  | empty => none
  | branch _ top left right => some (top, merge left right)

/-- A merge has the entries of both frontiers. -/
theorem size_merge (a b : Frontier) :
  (merge a b).size = a.size + b.size
  := by
  fun_induction merge a b with
  | case1 b => simp [size]
  | case2 n top left right => simp [size]
  | case3 n a al ar m b bl br h ih =>
    rw [size_join, ih]
    simp only [size]
    omega
  | case4 n a al ar m b bl br h ih =>
    rw [size_join, ih]
    simp only [size]
    omega

/-- Each entry that is taken out leaves a smaller frontier. -/
theorem size_of_pop? {f rest : Frontier} {e : Entry} (h : f.pop? = some (e, rest)) :
  rest.size < f.size
  := by
  cases f with
  | empty => simp [pop?] at h
  | branch n top left right =>
    simp only [pop?, Option.some.injEq, Prod.mk.injEq] at h
    rw [← h.2, size_merge, size]
    omega

end Frontier

end DiagramLayout
