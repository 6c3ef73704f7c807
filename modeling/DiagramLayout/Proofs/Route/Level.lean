import DiagramLayout.Proofs.Route.Arrival
import DiagramLayout.Proofs.Route.Bounds
import DiagramLayout.Proofs.Route.Direct

/-!
# Level connectors

A connector between two anchors at one height whose stubs point at each other is a single line, when all
obstacles stay above it by more than the padding and a pitch of the grid.

The grid has a row at this height, and no cell is blocked in that row or below it or in the row above. So
the row is a direct way for the search, and a way of no more steps keeps to the row. Then all points of the
draft have the same height, and so they have when there is no grid or the search gives up, as the single
turn has no height to make up for. What is left of such a draft are its ends.
-/

namespace DiagramLayout

open Single

/-! ### Points at one height -/

namespace Polyline

variable {first last p q : Point} {ps : List Point} {stops : List (Point × Bool)} {y : ℤ}

theorem isStraight_of_level (hy : |y| ≤ 5000000) (hlast : IsWhole last.y y) (hp : IsWhole p.y y)
    (hq : IsWhole q.y y) :
  isStraight last p q = true
  := by
  have hnear := (abs_sub_le_tolerance hlast hp hy hy).mpr rfl
  have hnear' := (abs_sub_le_tolerance hp hq hy hy).mpr rfl
  simp only [isStraight, hnear, hnear', decide_true, Bool.and_self, Bool.or_true]

/-- Of points at one height only the last one is left. -/
theorem dropMiddles_of_level (hy : |y| ≤ 5000000) (hlast : IsWhole last.y y)
    (h : ∀ p ∈ ps, IsWhole p.y y) :
  dropMiddles last ps = ps.getLast?.toList
  := by
  fun_induction dropMiddles last ps with
  | case1 last => rfl
  | case2 last p => rfl
  | case3 last p next rest hrun ih =>
    rw [List.getLast?_cons_cons]
    exact ih hlast (List.forall_mem_cons.mp h).2
  | case4 last p next rest hrun ih =>
    obtain ⟨hp, hnext, -⟩ := by simpa only [List.forall_mem_cons] using h
    exact absurd (isStraight_of_level hy hlast hp hnext) hrun

/-- A polyline at one height that ends far from the point before its end is simplified to its ends. -/
theorem simplify_of_level (hy : |y| ≤ 5000000) (h : ∀ r ∈ ps ++ [p], IsWhole r.y y)
    (hhead : ps.head? = some first) (hlast : ps.getLast? = some q) (hfar : q.IsFar p) :
  simplify (ps ++ [p]) = [first, p]
  := by
  cases ps with
  | nil => contradiction
  | cons start rest =>
    obtain rfl := Option.some.inj hhead
    rw [List.cons_append, List.forall_mem_cons] at h
    have hkept : dropRepeats start (rest ++ [p]) = dropRepeats start rest ++ [p] :=
      dropRepeats_concat hlast hfar
    have hlevel : ∀ r ∈ dropRepeats start (rest ++ [p]), IsWhole r.y y := by
      intro r hr
      exact h.2 r ((dropRepeats_sublist start _).subset hr)
    rw [List.cons_append, simplify, dropMiddles_of_level hy h.1 hlevel, hkept, List.getLast?_concat]
    rfl

/-- The elbows of a way along stops stand at heights of its stops. -/
theorem forall_mem_withElbows {P : Float32 → Prop} (hlast : P last.y) (h : ∀ stop ∈ stops, P stop.1.y) :
  ∀ p ∈ withElbows last stops, P p.y
  := by
  induction stops generalizing last with
  | nil => nofun
  | cons stop rest ih =>
    obtain ⟨next, b⟩ := stop
    obtain ⟨hnext, hrest⟩ := List.forall_mem_cons.mp h
    intro p hp
    rw [withElbows, List.mem_append, List.mem_cons] at hp
    rcases hp with hp | rfl | hp
    · rw [elbow] at hp
      split_ifs at hp
      · obtain rfl := List.mem_singleton.mp hp
        exact hlast
      · obtain rfl := List.mem_singleton.mp hp
        exact hnext
      · contradiction
    · exact hnext
    · exact ih hnext hrest p hp

end Polyline

namespace Connector

variable {c : Connector} {stops : Option (List Point)} {P : Float32 → Prop}

/-- The points between the stubs stand at the heights of the stubs and the stops. -/
theorem forall_mem_middle (hlead : P c.routingStart.y) (htrailing : P c.routingFinish.y)
    (hstops : ∀ ps ∈ stops, ∀ p ∈ ps, P p.y) :
  ∀ p ∈ c.middle stops, P p.y
  := by
  have hlast : ∀ stop ∈ [c.lastStop], P stop.1.y := by
    intro stop hstop
    obtain rfl := List.mem_singleton.mp hstop
    exact htrailing
  cases stops with
  | some ps =>
    apply Polyline.forall_mem_withElbows hlead
    intro stop hstop
    rcases List.mem_append.mp hstop with hstop | hstop
    · have hmem := List.mem_map_of_mem (f := Prod.fst) hstop
      rw [map_turning] at hmem
      exact hstops ps rfl stop.1 hmem
    · exact hlast stop hstop
  | none =>
    have hcorner : P (Point.mk c.routingStart.x c.routingFinish.y).y := htrailing
    exact List.forall_mem_cons.mpr ⟨hcorner, Polyline.forall_mem_withElbows (P := P) hcorner hlast⟩

/-- The points of a draft stand at the heights of its ends, its stubs and its stops. -/
theorem forall_mem_draft (hstart : P c.start.point.y) (hlead : P c.routingStart.y)
    (hfinish : P c.finish.point.y) (htrailing : P c.routingFinish.y)
    (hstops : ∀ ps ∈ stops, ∀ p ∈ ps, P p.y) :
  ∀ p ∈ c.draft stops, P p.y
  := by
  intro p hp
  rw [draft_eq, List.mem_append, List.mem_append, lead, trailing] at hp
  rcases hp with (hp | hp) | hp
  · split_ifs at hp
    · rcases List.mem_pair.mp hp with rfl | rfl
      · exact hstart
      · exact hlead
    · obtain rfl := List.mem_singleton.mp hp
      exact hstart
  · exact forall_mem_middle hlead htrailing hstops p hp
  · split_ifs at hp
    · obtain rfl := List.mem_singleton.mp hp
      exact hfinish
    · contradiction

end Connector

/-! ### Searches along a row -/

/-- Where no cell in the rows beside a cell is blocked, it is not crowded. -/
theorem Grid.crowding_eq_zero {g : Grid} {c : Cell}
    (h : ∀ d, g.lattice.inBounds d = true → c.row ≤ d.row + 1 → g.isBlocked d = false) :
  g.crowding c = 0
  := by
  apply List.countP_eq_zero.mpr
  intro d hd
  obtain ⟨hin, -, -, -, hrow⟩ := Lattice.mem_around.mp hd
  rw [h d hin hrow]
  exact Bool.false_ne_true

namespace Quest

variable {q : Quest} {h : Heading} {n : ℕ} {cells : ℕ → Cell} {way : List Cell}

/-- The poses along cells that are all entered along one heading. -/
def posesAlong (h : Heading) (cells : ℕ → Cell) (k : ℕ) : Pose :=
  ⟨cells k, if k = 0 then none else some h⟩

/-- A straight way in the preferred direction is direct when no blocked cell is around. -/
theorem isDirect_posesAlong (ht : q.tuning.HasPenalties) (hpreferred : q.preferred = some h)
    (hfirst : cells 0 = q.start) (hlast : cells n = q.goal)
    (hopen : ∀ k < n, q.grid.open? (cells k) h = some (cells (k + 1)))
    (hclear : ∀ k < n, q.grid.crowding (cells (k + 1)) = 0) :
  q.IsDirect n (posesAlong h cells)
  := by
  constructor
  case first =>
    rw [posesAlong, hfirst, if_pos rfl]
    rfl
  case last => exact hlast
  case moves =>
    intro k hk
    have hmove : (posesAlong h cells (k + 1), q.stepCost (posesAlong h cells k) h (cells (k + 1)))
        ∈ q.moves (posesAlong h cells k) :=
      mem_moves.mpr ⟨h, hopen k hk, rfl, rfl⟩
    refine ⟨_, hmove, ?_⟩
    apply costsAtMost_stepCost_of_straight ht (hclear k hk) hpreferred
    by_cases hzero : k = 0
    · exact .inl (if_pos hzero)
    · exact .inr (if_neg hzero)

/-- The goal is in the row of the start, in the preferred direction, and neither this row nor the row
above nor any row below it has a blocked cell. -/
structure IsLevel (q : Quest) : Prop where
  start : q.grid.lattice.inBounds q.start = true
  goal : q.grid.lattice.inBounds q.goal = true
  row : q.goal.row = q.start.row
  ahead : q.preferred = some .right ∧ q.start.col ≤ q.goal.col
    ∨ q.preferred = some .left ∧ q.goal.col ≤ q.start.col
  free : ∀ d, q.grid.lattice.inBounds d = true → q.start.row ≤ d.row + 1 → q.grid.isBlocked d = false

namespace IsLevel

/-- The row is a direct way. -/
theorem exists_isDirect (hq : q.IsLevel) (ht : q.tuning.HasPenalties) :
  ∃ pose, q.IsDirect (q.distance q.start) pose
  := by
  obtain ⟨hcol, hrow⟩ := Lattice.inBounds_iff.mp hq.start
  obtain ⟨hcol', -⟩ := Lattice.inBounds_iff.mp hq.goal
  have hsame := hq.row
  have hfree : ∀ col < q.grid.lattice.cols, q.grid.isBlocked ⟨col, q.start.row⟩ = false := by
    intro col hlt
    exact hq.free _ (Lattice.inBounds_iff.mpr ⟨hlt, hrow⟩) (Nat.le_succ _)
  have hclear : ∀ col, q.grid.crowding ⟨col, q.start.row⟩ = 0 :=
    fun _ => Grid.crowding_eq_zero hq.free
  have hgoal : ∀ col, col = q.goal.col → Cell.mk col q.start.row = q.goal := by
    rintro col rfl
    rw [← hsame]
  rcases hq.ahead with ⟨hpreferred, hle⟩ | ⟨hpreferred, hle⟩
  · have hdistance : q.distance q.start = q.goal.col - q.start.col := by
      rw [distance]
      omega
    rw [hdistance]
    -- The goal is ahead to the right, in steps along one row.
    use posesAlong .right fun k => ⟨q.start.col + k, q.start.row⟩
    refine isDirect_posesAlong ht hpreferred rfl (hgoal _ (by omega)) ?_ fun _ _ => hclear _
    intro k hk
    apply Grid.open?_eq_some.mpr ⟨_, hfree _ (by omega)⟩
    exact if_pos (by dsimp only; omega)
  · have hdistance : q.distance q.start = q.start.col - q.goal.col := by
      rw [distance]
      omega
    rw [hdistance]
    use posesAlong .left fun k => ⟨q.start.col - k, q.start.row⟩
    refine isDirect_posesAlong ht hpreferred rfl (hgoal _ (by omega)) ?_ fun _ _ => hclear _
    intro k hk
    apply Grid.open?_eq_some.mpr ⟨_, hfree _ (by omega)⟩
    exact if_pos (by dsimp only; omega)

/-- The way that is found keeps to the row. -/
theorem row_eq_of_solve? (hq : q.IsLevel) (ht : q.tuning.HasPenalties)
    (hcols : q.grid.lattice.cols ≤ 2 ^ 24) (h : q.solve? = some (some way)) :
  ∀ c ∈ way, c.row = q.start.row
  := by
  obtain ⟨pose, hdirect⟩ := hq.exists_isDirect ht
  have hsmall : q.distance q.start < 2 ^ 24 := by
    have hcol := (Lattice.inBounds_iff.mp hq.start).1
    have hcol' := (Lattice.inBounds_iff.mp hq.goal).1
    have hrow := hq.row
    rw [distance]
    omega
  have hlength := length_le_of_isDirect ht hdirect hq.start hsmall h
  obtain ⟨hhead, hlast, hchain⟩ := isChain_of_solve? hq.start h
  cases way with
  | nil => contradiction
  | cons c rest =>
    obtain rfl := Option.some.inj hhead
    rw [← hq.row]
    apply row_eq_of_length_le (hchain.imp fun _ _ hstep => hstep.1) hlast hq.row.symm
    exact Nat.le_of_succ_le_succ hlength

end IsLevel

end Quest

/-! ### Connectors along a row -/

namespace Connector

/-- Two anchors at the height `y`, in the columns `m` and `n`, whose stubs, of the length `k`, point at each
other and leave room for a pitch `g` of the grid between them. All numbers are integers of moderate size, and
the obstacles, grown by the padding, end more than a pitch above the anchors. -/
structure IsLevel (c : Connector) (m n y g k : ℤ) : Prop where
  start : c.start.point.IsAt m y
  finish : c.finish.point.IsAt n y
  width : (0 ≤ m ∧ m ≤ 3900000) ∧ 0 ≤ n ∧ n ≤ 3900000
  height : 0 ≤ y ∧ y ≤ 3000000
  gridSize : IsWhole c.spacing.gridSize g ∧ 1 ≤ g ∧ g ≤ 1000
  stubLength : IsWhole c.spacing.stubLength k ∧ 4 ≤ k ∧ k ≤ 1000
  margin : ∃ d, IsWhole c.tuning.margin d ∧ 0 ≤ d ∧ d ≤ 100000
  facing : c.start.side = some .right ∧ c.finish.side = some .left ∧ m + 2 * k + g ≤ n
    ∨ c.start.side = some .left ∧ c.finish.side = some .right ∧ n + 2 * k + g ≤ m
  above : ∀ r ∈ c.padded, ∃ a b a' b', r.Spans a b a' b' ∧ (-100000 ≤ a ∧ b ≤ 3900000) ∧ -100000 ≤ a'
    ∧ b' + g < y

variable {c : Connector} {m n y g k x x' s t : ℤ} {l : Lattice} {grid : Grid}

/-- A stub to the right or to the left ends at the height of its anchor. -/
theorem isAt_stubEnd {spacing : RouteSpacing} {a : Anchor} {side : Side} {i : ℤ}
    (ha : a.point.IsAt m y) (hside : a.side = some side) (hx : IsWhole side.normal.x i)
    (hy : IsWhole side.normal.y 0) (hi : i = 1 ∨ i = -1) (hk : IsWhole spacing.stubLength k)
    (hwidth : 0 ≤ m ∧ m ≤ 3900000) (hheight : 0 ≤ y ∧ y ≤ 3000000) (hlength : 4 ≤ k ∧ k ≤ 1000) :
  (stubEnd spacing a).IsAt (m + i * k) y
  := by
  have hik : |i * k| ≤ 1000 := by
    rw [abs_le]
    rcases hi with rfl | rfl <;> omega
  rw [abs_le] at hik
  have hlevel : IsWhole (side.normal.y * spacing.stubLength) 0 := by
    have hproduct := hy.mul hk (by rw [abs_le]; omega)
    rwa [zero_mul] at hproduct
  have hend := ha.y.add hlevel (by rw [abs_le]; omega)
  rw [add_zero] at hend
  rw [stubEnd, hside]
  exact ⟨ha.x.add (hx.mul hk (by rw [abs_le]; omega)) (by rw [abs_le]; omega), hend⟩

namespace IsLevel

/-- The stubs point at each other and end at least a pitch apart. -/
theorem exists_stubs (h : c.IsLevel m n y g k) :
  ∃ m' n', c.routingStart.IsAt m' y ∧ c.routingFinish.IsAt n' y
    ∧ (c.start.side = some .right ∧ (m ≤ m' ∧ m' + g ≤ n' ∧ n' ≤ n)
      ∨ c.start.side = some .left ∧ (n ≤ n' ∧ n' + g ≤ m' ∧ m' ≤ m))
  := by
  obtain ⟨hm, hn⟩ := h.width
  obtain ⟨hk, hlength⟩ := h.stubLength
  have hpitch := h.gridSize.2.1
  rcases h.facing with ⟨hstart, hfinish, hroom⟩ | ⟨hstart, hfinish, hroom⟩
  · have hlead : c.routingStart.IsAt (m + 1 * k) y :=
      isAt_stubEnd h.start hstart isWhole_one isWhole_zero (.inl rfl) hk hm h.height hlength
    have htrailing : c.routingFinish.IsAt (n + -1 * k) y :=
      isAt_stubEnd h.finish hfinish isWhole_one.neg isWhole_zero (.inr rfl) hk hn h.height hlength
    exact ⟨_, _, hlead, htrailing, .inl ⟨hstart, by omega⟩⟩
  · have hlead : c.routingStart.IsAt (m + -1 * k) y :=
      isAt_stubEnd h.start hstart isWhole_one.neg isWhole_zero (.inr rfl) hk hm h.height hlength
    have htrailing : c.routingFinish.IsAt (n + 1 * k) y :=
      isAt_stubEnd h.finish hfinish isWhole_one isWhole_zero (.inl rfl) hk hn h.height hlength
    exact ⟨_, _, hlead, htrailing, .inr ⟨hstart, by omega⟩⟩

theorem hasStub (h : c.IsLevel m n y g k) :
  HasStub c.spacing c.finish
  := by
  obtain ⟨-, hn, hn'⟩ := h.width
  obtain ⟨hy, hy'⟩ := h.height
  obtain ⟨hk, hk', hk''⟩ := h.stubLength
  constructor
  case side =>
    rcases h.facing with ⟨-, hside, -⟩ | ⟨-, hside, -⟩
    all_goals exact Option.isSome_of_eq_some hside
  case point =>
    exact ⟨h.finish.x.isWithin (by rw [abs_le]; omega), h.finish.y.isWithin (by rw [abs_le]; omega)⟩
  case length => exact hk.isWithin (by rw [abs_le]; omega)
  case four_le =>
    rw [hk.value_eq]
    exact_mod_cast hk'

/-- The lattice of the grid has a row at the height of the anchors, and no stub ends in front of its first
column. -/
theorem exists_row (h : c.IsLevel m n y g k) (hstart : c.routingStart.IsAt x y)
    (hfinish : c.routingFinish.IsAt x' y) (hwidth : (0 ≤ x ∧ x ≤ 3900000) ∧ 0 ≤ x' ∧ x' ≤ 3900000)
    (hcover : Lattice.cover? c.routingStart
      [c.start.point, c.finish.point, c.routingStart, c.routingFinish] c.padded c.spacing.gridSize
      c.tuning.margin = some l) :
  ∃ s t, l.IsExact s t g ∧ (s ≤ x ∧ s ≤ x') ∧ ∃ j < l.rows, y = t + j * g
  := by
  obtain ⟨⟨hm, hm'⟩, hn, hn'⟩ := h.width
  obtain ⟨hy, hy'⟩ := h.height
  obtain ⟨hpitch, hpitch', hpitch''⟩ := h.gridSize
  obtain ⟨d, hd, hd', hd''⟩ := h.margin
  have hpoints : ∀ p ∈ [c.start.point, c.finish.point, c.routingStart, c.routingFinish],
      ∃ m n, p.IsAt m n ∧ (-100000 ≤ m ∧ m ≤ 3900000) ∧ -100000 ≤ n ∧ n ≤ 3900000 := by
    intro p hp
    simp only [List.mem_cons, List.not_mem_nil, or_false] at hp
    rcases hp with rfl | rfl | rfl | rfl
    · exact ⟨m, y, h.start, by omega, by omega⟩
    · exact ⟨n, y, h.finish, by omega, by omega⟩
    · exact ⟨x, y, hstart, by omega, by omega⟩
    · exact ⟨x', y, hfinish, by omega, by omega⟩
  have hrects : ∀ r ∈ c.padded, ∃ a b a' b', r.Spans a b a' b' ∧ (-100000 ≤ a ∧ b ≤ 3900000)
      ∧ -100000 ≤ a' ∧ b' ≤ 3900000 := by
    intro r hr
    obtain ⟨a, b, a', b', hspans, hab, ha', hb'⟩ := h.above r hr
    exact ⟨a, b, a', b', hspans, hab, ha', by omega⟩
  obtain ⟨s, t, hl, -, hrow, hin⟩ := Lattice.exists_isExact_of_bounds hcover hpitch hpitch' (by omega) hd
    hd' (by norm_num) (by omega) (by norm_num) (by omega) hstart (by simp) hpoints hrects
  have hleft : s ≤ x ∧ s ≤ x' :=
    ⟨(hin _ (by simp) _ _ hstart).1.1, (hin _ (by simp) _ _ hfinish).1.1⟩
  exact ⟨s, t, hl, hleft, hrow⟩

/-- The obstacles block no cell in the row of the anchors, below it or in the row above. -/
theorem isBlocked_ofRects (h : c.IsLevel m n y g k) {j : ℕ} (hl : l.IsExact s t g) (hy : y = t + j * g)
    {cell : Cell} (hcell : l.inBounds cell = true) (hbelow : j ≤ cell.row + 1) :
  (Grid.ofRects l c.padded).isBlocked cell = false
  := by
  have hpitch := h.gridSize.2.1
  apply Grid.isBlocked_ofRects_eq_false hcell
  intro r hr
  obtain ⟨a, b, a', b', hspans, -, -, hend⟩ := h.above r hr
  rw [← Bool.not_eq_true, hspans.contains_iff (hl.vertex hcell)]
  have hle : j * g ≤ (cell.row + 1) * g := by
    apply mul_le_mul_of_nonneg_right _ (by omega)
    exact_mod_cast hbelow
  rw [add_mul, one_mul] at hle
  omega

/-- The grid has a row at the height of the anchors, along which the search is level. -/
theorem isLevel_questOn (h : c.IsLevel m n y g k) (hgrid : c.grid? = some grid) :
  (c.questOn grid).IsLevel
    ∧ ∀ cell : Cell, cell.row = (c.questOn grid).start.row → IsWhole (grid.lattice.vertex cell).y y
  := by
  obtain ⟨l, rfl, hcover⟩ := grid?_eq_some hgrid
  obtain ⟨⟨hm, hm'⟩, hn, hn'⟩ := h.width
  obtain ⟨hy, hy'⟩ := h.height
  have hpitch := h.gridSize.2.1
  obtain ⟨x, x', hstart, hfinish, hapart⟩ := h.exists_stubs
  obtain ⟨s, t, hl, hleft, j, hj, hheight⟩ := h.exists_row hstart hfinish (by omega) hcover
  -- The row `j` of the lattice has the height of the anchors.
  have hrow : ∀ {p : Point}, IsWhole p.y y → (l.nearestCell p).row = j := by
    intro p hp
    rw [hheight] at hp
    exact hl.rows.nearestOnAxis_vertex hj hp (by rw [abs_le]; omega)
  constructor
  · constructor
    case start => exact Lattice.inBounds_nearestCell hcover _
    case goal => exact Lattice.inBounds_nearestCell hcover _
    case row => exact (hrow hfinish.y).trans (hrow hstart.y).symm
    case ahead =>
      rcases hapart with ⟨hside, -, hlt, hle⟩ | ⟨hside, -, hlt, hle⟩
      · left
        refine ⟨by rw [questOn, hside]; rfl, ?_⟩
        exact hl.cols.nearestOnAxis_le hstart.x hfinish.x hleft.1 hlt (by omega)
      · right
        refine ⟨by rw [questOn, hside]; rfl, ?_⟩
        exact hl.cols.nearestOnAxis_le hfinish.x hstart.x hleft.2 hlt (by omega)
    case free =>
      intro cell hcell hbelow
      have hbelow' : (l.nearestCell c.routingStart).row ≤ cell.row + 1 := hbelow
      rw [hrow hstart.y] at hbelow'
      apply Grid.isBlocked_free_eq_false
      apply Grid.isBlocked_free_eq_false
      exact h.isBlocked_ofRects hl hheight hcell hbelow'
  · intro cell hcell
    have hsame : cell.row = j := hcell.trans (hrow hstart.y)
    rw [hheight, ← hsame]
    exact hl.rows.vertex (hsame ▸ hj)

/-- All stops of the way through the grid stand at the height of the anchors. -/
theorem isWhole_of_gridStops? (h : c.IsLevel m n y g k) (ht : c.tuning.HasPenalties)
    {stops : Option (List Point)} (hstops : c.gridStops? = some stops) :
  ∀ ps ∈ stops, ∀ p ∈ ps, IsWhole p.y y
  := by
  rw [gridStops?] at hstops
  cases hgrid : c.grid? with
  | none =>
    rw [hgrid] at hstops
    obtain rfl := Option.some.inj hstops
    intro ps hps
    exact absurd hps (Option.not_mem_none ps)
  | some grid =>
    rw [hgrid] at hstops
    obtain ⟨way, hway, rfl⟩ := Option.map_eq_some_iff.mp hstops
    obtain ⟨hlevel, hvertex⟩ := h.isLevel_questOn hgrid
    have hmodest : grid.lattice.IsModest := (Grid.isModest_of_build? hgrid).lattice
    have hcols : (c.questOn grid).grid.lattice.cols ≤ 2 ^ 24 := hmodest.cols_le.trans (by norm_num)
    intro ps hps p hp
    obtain ⟨cells, rfl, rfl⟩ := Option.map_eq_some_iff.mp hps
    obtain ⟨cell, hcell, rfl⟩ := List.mem_map.mp hp
    apply hvertex
    exact hlevel.row_eq_of_solve? ht hcols hway cell (List.mem_of_mem_tail (List.mem_of_mem_dropLast hcell))

/-- A level connector is a straight line between its anchors. -/
theorem route_eq (h : c.IsLevel m n y g k) (ht : c.tuning.HasPenalties) :
  c.route = [c.start.point, c.finish.point]
  := by
  obtain ⟨hy, hy'⟩ := h.height
  obtain ⟨stops, hstops, hroute⟩ := c.exists_route_eq ht
  obtain ⟨ps, hdraft, hlast⟩ := exists_draft_concat h.hasStub.side stops
  obtain ⟨x, x', hstart, hfinish, -⟩ := h.exists_stubs
  have hlevel : ∀ p ∈ c.draft stops, IsWhole p.y y :=
    forall_mem_draft (P := fun z => IsWhole z y) h.start.y hstart.y h.finish.y hfinish.y
      (h.isWhole_of_gridStops? ht hstops)
  have hhead : ps.head? = some c.start.point := by
    have hfirst := c.head?_draft stops
    rwa [hdraft, List.head?_append_of_ne_nil _ (List.ne_nil_of_mem (List.mem_of_getLast? hlast))]
      at hfirst
  rw [hdraft] at hlevel
  rw [hroute, hdraft]
  exact Polyline.simplify_of_level (by rw [abs_le]; omega) hlevel hhead hlast h.hasStub.isFar

end IsLevel

end Connector

end DiagramLayout
