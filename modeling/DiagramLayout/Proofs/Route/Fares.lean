import DiagramLayout.Proofs.Route.Reachability
import DiagramLayout.Proofs.Single.Quarters

/-!
# The fares of walks

The fare of a walk is what its steps cost in exact numbers. With penalties that are small numbers of
quarters the cost of a step is its fare, without any error. Every step costs at least one, so the
distance that is left never exceeds the fare of the rest of a walk to the goal.
-/

namespace DiagramLayout

open Single

/-! ### Headings of steps -/

namespace Cell

/-- The heading of the step from a cell to a neighbour. -/
def toward (c d : Cell) : Heading :=
  if c.col < d.col then .right
  else if d.col < c.col then .left
  else if c.row < d.row then .down
  else .up

/-- The heading toward the cell that a step leads to is that of the step. -/
theorem toward_of_step? {l : Lattice} {c d : Cell} {h : Heading} (hd : l.step? c h = some d) :
  c.toward d = h
  := by
  cases h with
  | right =>
    simp only [Lattice.step?, Option.ite_none_right_eq_some, Option.some.injEq] at hd
    obtain ⟨-, rfl⟩ := hd
    simp [toward]
  | left =>
    simp only [Lattice.step?, Option.ite_none_right_eq_some, Option.some.injEq] at hd
    obtain ⟨hpos, rfl⟩ := hd
    have hlt : c.col - 1 < c.col := by omega
    simp [toward, hlt, hlt.le]
  | down =>
    simp only [Lattice.step?, Option.ite_none_right_eq_some, Option.some.injEq] at hd
    obtain ⟨-, rfl⟩ := hd
    simp [toward]
  | up =>
    simp only [Lattice.step?, Option.ite_none_right_eq_some, Option.some.injEq] at hd
    obtain ⟨-, rfl⟩ := hd
    simp [toward]

end Cell

namespace Pose

/-- The pose after a step to a neighbour. -/
def enter (p : Pose) (c : Cell) : Pose :=
  ⟨c, some (p.cell.toward c)⟩

/-- The pose after a walk. -/
def along (p : Pose) (cells : List Cell) : Pose :=
  cells.foldl enter p

/-- One more cell is entered from the pose before it. -/
theorem along_concat (p : Pose) (cells : List Cell) (c : Cell) :
  p.along (cells ++ [c]) = (p.along cells).enter c
  := List.foldl_concat ..

end Pose

/-! ### Fares -/

/-- The number of blocked cells of the grid that are around a cell. -/
def Grid.blockedAround (g : Grid) (c : Cell) : ℕ :=
  ((Finset.range g.lattice.rows ×ˢ Finset.range g.lattice.cols).filter fun place =>
    g.isBlocked ⟨place.2, place.1⟩ = true ∧ c.IsAround ⟨place.2, place.1⟩).card

/-- A cell is crowded by the blocked cells around it. -/
theorem Grid.crowding_eq_blockedAround (g : Grid) (c : Cell) :
  g.crowding c = g.blockedAround c
  := by
  have hnodup : (((g.lattice.around c).filter g.isBlocked).map fun d => (d.row, d.col)).Nodup := by
    apply ((Lattice.nodup_around g.lattice c).filter _).map
    rintro ⟨col, row⟩ ⟨col', row'⟩ heq
    obtain ⟨rfl, rfl⟩ := Prod.mk.inj heq
    rfl
  rw [crowding, List.countP_eq_length_filter, ← List.length_map fun d : Cell => (d.row, d.col),
    ← List.toFinset_card_of_nodup hnodup, blockedAround]
  congr 1
  ext ⟨row, col⟩
  simp only [List.mem_toFinset, List.mem_map, List.mem_filter, Lattice.mem_around, Finset.mem_filter,
    Finset.mem_product, Finset.mem_range, Lattice.inBounds_iff]
  constructor
  · rintro ⟨d, ⟨⟨⟨hcol, hrow⟩, haround⟩, hblocked⟩, heq⟩
    obtain ⟨rfl, rfl⟩ := Prod.mk.inj heq
    exact ⟨⟨hrow, hcol⟩, hblocked, haround⟩
  · rintro ⟨⟨hrow, hcol⟩, hblocked, haround⟩
    exact ⟨⟨col, row⟩, ⟨⟨⟨hcol, hrow⟩, haround⟩, hblocked⟩, rfl⟩

namespace Quest

variable {q : Quest} {p target : Pose} {c d : Cell} {cells : List Cell} {step : Float32} {h : Heading}

/-- The fare of a step from a pose to a neighbour: one, the proximity penalty for each blocked cell
around the neighbour, the penalty for a turn and for a turn back, and the one for a first step off the
preferred heading. -/
def fare (q : Quest) (p : Pose) (c : Cell) : ℚ :=
  let h := p.cell.toward c
  1 + q.grid.blockedAround c * value q.tuning.proximityPenalty
    + (if p.heading.any (· ≠ h) then value q.tuning.turnPenalty else 0)
    + (if p.heading = some h.opposite then value q.tuning.uturnPenalty else 0)
    + if p.heading.isNone && q.preferred.any (· ≠ h) then value q.tuning.startDirectionPenalty else 0

/-- The fare of a walk from a pose. -/
def fares (q : Quest) (p : Pose) : List Cell → ℚ
  | [] => 0
  | c :: rest => q.fare p c + q.fares (p.enter c) rest

/-- The fare of a walk that begins at its first cell without a heading. -/
def fareOf (q : Quest) (cells : List Cell) : ℚ :=
  q.fares q.startPose cells.tail

/-- One more cell adds its fare. -/
theorem fares_concat (q : Quest) (p : Pose) (cells : List Cell) (c : Cell) :
  q.fares p (cells ++ [c]) = q.fares p cells + q.fare (p.along cells) c
  := by
  induction cells generalizing p with
  | nil => simp [fares, Pose.along]
  | cons first rest ih =>
    rw [List.cons_append, fares, fares, ih, add_assoc]
    rfl

/-- A move leads to the pose that enters its cell. -/
theorem enter_of_mem_moves (hmove : (target, step) ∈ q.moves p) :
  p.enter target.cell = target
  := by
  obtain ⟨h, hopen, hheading, -⟩ := mem_moves.mp hmove
  obtain ⟨hstep, -⟩ := Grid.open?_eq_some.mp hopen
  rw [Pose.enter, Cell.toward_of_step? hstep, ← hheading]

/-- For every step to a free neighbour there is a move. -/
theorem exists_move_enter (hp : q.Has p) (hstep : q.grid.Step p.cell c) :
  ∃ step, (p.enter c, step) ∈ q.moves p
  := by
  obtain ⟨hnear, hc, hfree⟩ := hstep
  obtain ⟨h, step, hmove⟩ := exists_mem_moves hp hnear hc hfree
  use step
  rw [enter_of_mem_moves hmove]
  exact hmove

end Quest

/-! ### Penalties in quarters -/

/-- At most sixteen quarters. -/
def IsQuarterPenalty (x : Float32) : Prop :=
  ∃ n ≤ 16, IsQuarters x n

instance (x : Float32) : Decidable (IsQuarterPenalty x) :=
  decidable_of_iff (∃ n ∈ List.range 17, IsQuarters x n)
    ⟨fun ⟨n, hn, hx⟩ => ⟨n, Nat.lt_succ_iff.mp (List.mem_range.mp hn), hx⟩,
      fun ⟨n, hn, hx⟩ => ⟨n, List.mem_range.mpr (Nat.lt_succ_of_le hn), hx⟩⟩

/-- All penalties are numbers of quarters between zero and four. -/
structure RouteTuning.HasQuarterPenalties (t : RouteTuning) : Prop where
  proximity : IsQuarterPenalty t.proximityPenalty
  turn : IsQuarterPenalty t.turnPenalty
  uturn : IsQuarterPenalty t.uturnPenalty
  startDirection : IsQuarterPenalty t.startDirectionPenalty

instance (t : RouteTuning) : Decidable t.HasQuarterPenalties :=
  decidable_of_iff (IsQuarterPenalty t.proximityPenalty ∧ IsQuarterPenalty t.turnPenalty
      ∧ IsQuarterPenalty t.uturnPenalty ∧ IsQuarterPenalty t.startDirectionPenalty)
    ⟨fun ⟨hproximity, hturn, huturn, hstart⟩ => ⟨hproximity, hturn, huturn, hstart⟩,
      fun h => ⟨h.proximity, h.turn, h.uturn, h.startDirection⟩⟩

theorem IsQuarterPenalty.isPenalty {x : Float32} (h : IsQuarterPenalty x) :
  IsPenalty x
  := by
  obtain ⟨n, -, hx⟩ := h
  exact ⟨isRational_iff.mp hx.isRational, hx.nonneg⟩

theorem RouteTuning.HasQuarterPenalties.hasPenalties {t : RouteTuning}
    (h : t.HasQuarterPenalties) :
  t.HasPenalties
  := ⟨h.proximity.isPenalty, h.turn.isPenalty, h.uturn.isPenalty, h.startDirection.isPenalty⟩

namespace Quest

variable {q : Quest} {p target : Pose} {c d : Cell} {cells : List Cell} {step : Float32} {h : Heading}

/-- The cost of a step is its fare: at least four and at most 196 quarters. -/
theorem exists_isQuarters_stepCost (ht : q.tuning.HasQuarterPenalties) (p : Pose) (c : Cell) :
  ∃ n, IsQuarters (q.stepCost p (p.cell.toward c) c) n ∧ 4 ≤ n ∧ n ≤ 196 ∧ q.fare p c = n / 4
  := by
  obtain ⟨a, ha, hproximity⟩ := ht.proximity
  obtain ⟨b, hb, hturn⟩ := ht.turn
  obtain ⟨u, hu, huturn⟩ := ht.uturn
  obtain ⟨s, hs, hstart⟩ := ht.startDirection
  have hcrowding := q.grid.crowding_le c
  have hproduct : q.grid.crowding c * a ≤ 9 * 16 := Nat.mul_le_mul hcrowding ha
  have hplain := isQuarters_one.add (hproximity.mul_ofNat (k := q.grid.crowding c) (by omega)
    (by omega)) (by omega)
  obtain ⟨b', hb', hturned, hturn'⟩ :=
    hplain.surcharge (p.heading.any (· ≠ p.cell.toward c)) hturn (by omega)
  obtain ⟨u', hu', hreversed, huturn'⟩ :=
    hturned.surcharge (p.heading = some (p.cell.toward c).opposite) huturn (by omega)
  obtain ⟨s', hs', hcost, hstart'⟩ :=
    hreversed.surcharge (p.heading.isNone && q.preferred.any (· ≠ p.cell.toward c)) hstart (by omega)
  refine ⟨_, hcost, by omega, by omega, ?_⟩
  rw [fare, ← Grid.crowding_eq_blockedAround, hturn', huturn', hstart', hproximity.value_eq]
  push_cast
  ring

/-- With penalties of quarters, a move costs its fare exactly. -/
theorem exists_isQuarters_of_mem_moves (ht : q.tuning.HasQuarterPenalties)
    (hmove : (target, step) ∈ q.moves p) :
  ∃ n, IsQuarters step n ∧ 4 ≤ n ∧ n ≤ 196 ∧ q.fare p target.cell = n / 4
  := by
  obtain ⟨h, hopen, -, rfl⟩ := mem_moves.mp hmove
  obtain ⟨hstep, -⟩ := Grid.open?_eq_some.mp hopen
  rw [← Cell.toward_of_step? hstep]
  exact exists_isQuarters_stepCost ht p target.cell

/-- Every step has a fare of at least one. -/
theorem one_le_fare (ht : q.tuning.HasQuarterPenalties) (p : Pose) (c : Cell) :
  1 ≤ q.fare p c
  := by
  obtain ⟨n, -, hlow, -, hfare⟩ := exists_isQuarters_stepCost ht p c
  have hlow' : (4 : ℚ) ≤ n := by exact_mod_cast hlow
  rw [hfare]
  linarith

/-! ### The distance that is left -/

/-- A step changes the distance to the goal by at most one. -/
theorem distance_le (q : Quest) (h : c.IsNeighbour d) :
  q.distance c ≤ q.distance d + 1
  := by
  unfold distance
  rcases h with ⟨hcol, hrow⟩ | ⟨hrow, hcol⟩ <;> omega

/-- A way to the goal has at least as many steps as the goal is away. -/
theorem distance_le_length {c : Cell} {rest : List Cell}
    (hchain : (c :: rest).IsChain Cell.IsNeighbour) (hlast : (c :: rest).getLast? = some q.goal) :
  q.distance c ≤ rest.length
  := by
  induction rest generalizing c with
  | nil =>
    have hgoal : c = q.goal := Option.some.inj hlast
    rw [hgoal, distance]
    omega
  | cons e rest ih =>
    obtain ⟨hnear, hrest⟩ := List.isChain_cons_cons.mp hchain
    rw [List.getLast?_cons_cons] at hlast
    have hle := ih hrest hlast
    have hstep := q.distance_le hnear
    rw [List.length_cons]
    omega

/-- Each step of a walk adds at least one to its fare. -/
theorem length_le_fares (ht : q.tuning.HasQuarterPenalties) (p : Pose) (cells : List Cell) :
  (cells.length : ℚ) ≤ q.fares p cells
  := by
  induction cells generalizing p with
  | nil =>
    rw [fares, List.length_nil, Nat.cast_zero]
  | cons c rest ih =>
    have hfare := one_le_fare ht p c
    have hrest := ih (p.enter c)
    rw [fares, List.length_cons]
    push_cast
    linarith

/-- The fare of a walk to the goal is at least the distance of the goal. -/
theorem distance_le_fares (ht : q.tuning.HasQuarterPenalties)
    (hchain : (p.cell :: cells).IsChain Cell.IsNeighbour)
    (hlast : (p.cell :: cells).getLast? = some q.goal) :
  (q.distance p.cell : ℚ) ≤ q.fares p cells
  := by
  have hle : (q.distance p.cell : ℚ) ≤ cells.length := by
    exact_mod_cast distance_le_length hchain hlast
  exact hle.trans (length_le_fares ht p cells)

/-- No cell is farther from the goal than twice the size of the grid. -/
theorem distance_le_size (hc : q.grid.lattice.inBounds c = true)
    (hgoal : q.grid.lattice.inBounds q.goal = true) :
  q.distance c ≤ 2 * q.grid.lattice.size
  := by
  obtain ⟨hcol, hrow⟩ := Lattice.inBounds_iff.mp hc
  obtain ⟨hcol', hrow'⟩ := Lattice.inBounds_iff.mp hgoal
  have hcols : q.grid.lattice.cols ≤ q.grid.lattice.size := Nat.le_mul_of_pos_right _ (by omega)
  have hrows : q.grid.lattice.rows ≤ q.grid.lattice.size := Nat.le_mul_of_pos_left _ (by omega)
  unfold distance
  omega

end Quest

end DiagramLayout
