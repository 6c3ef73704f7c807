import DiagramLayout.Proofs.Route.Blocking
import DiagramLayout.Proofs.Route.Draft
import DiagramLayout.Proofs.Route.Interior
import DiagramLayout.Proofs.Route.Polyline

/-!
# Connectors keep out of obstacles

A connector that follows a way through the grid crosses no obstacle, if its numbers are integers for
which single precision is exact, the pitch of the grid is not too large for the padding, the stubs are
not too long for it, and the ends keep away from the obstacles. The search looks at vertices only. A
leg between two vertices is safe because it is shorter than twice the padding; the last leg, which
leaves the grid, is at most one and a half pitches long along one axis and half a pitch along the
other.
-/

namespace DiagramLayout

open Single

/-! ### The legs between the stubs -/

/-- The vertices of neighbours are one pitch apart along one axis. -/
theorem Cell.IsNeighbour.offset {x y : Cell} {c : ℤ} (h : x.IsNeighbour y) (hc : 0 ≤ c) (s t : ℤ) :
  |s + x.col * c - (s + y.col * c)| ≤ c ∧ |t + x.row * c - (t + y.row * c)| ≤ c
    ∧ (s + x.col * c = s + y.col * c ∨ t + x.row * c = t + y.row * c)
  := by
  have hstep : ∀ {i j : ℕ}, i + 1 = j ∨ j + 1 = i → |(i : ℤ) * c - j * c| = c := by
    rintro i j (rfl | rfl)
    · rw [← sub_mul, abs_mul, abs_of_nonneg hc]
      norm_num
    · rw [← sub_mul, abs_mul, abs_of_nonneg hc]
      norm_num
  rw [add_sub_add_left_eq_sub, add_sub_add_left_eq_sub]
  rcases h with ⟨hcol, hrow⟩ | ⟨hrow, hcol⟩
  · rw [hcol, hstep hrow, sub_self, abs_zero]
    exact ⟨hc, le_rfl, Or.inl rfl⟩
  · rw [hrow, hstep hcol, sub_self, abs_zero]
    exact ⟨le_rfl, hc, Or.inr rfl⟩

section Legs

variable {r : Rect} {p q : Point} {d a b w h c s t m n m' n' : ℤ}

/-- A leg of at most one and a half pitches along both axes and half a pitch along one. -/
theorem isChain_leg (hr : r.IsAt a b w h) (hc : 0 ≤ c) (hcd : 3 * c ≤ 4 * d)
    (hp : p.IsClear d a b w h m n) (hq : q.IsClear d a b w h m' n') (hm : 2 * |m - m'| ≤ 3 * c)
    (hn : 2 * |n - n'| ≤ 3 * c) (hmn : 2 * |m - m'| ≤ c ∨ 2 * |n - n'| ≤ c) (first : Bool) :
  (p :: (Polyline.elbow p q first ++ [q])).IsChain (Avoids r.interior)
  := by
  apply isChain_elbow hr _ hp hq
  · omega
  · omega
  · omega
  · omega

/-- The legs along the interior cells of a way and on to the end of the way. -/
theorem isChain_stops (hr : r.IsAt a b w h) (hc : 0 ≤ c) (hcd : 3 * c ≤ 4 * d) (l : Lattice)
    {x goal : Cell} {rest : List Cell} (hq : q.IsClear d a b w h m' n')
    (hm : 2 * |m' - (s + goal.col * c)| ≤ c) (hn : 2 * |n' - (t + goal.row * c)| ≤ c)
    (hp : p.IsClear d a b w h (s + x.col * c) (t + x.row * c))
    (hchain : (x :: rest).IsChain Cell.IsNeighbour) (hlast : (x :: rest).getLast? = some goal)
    (hclear : ∀ y ∈ rest.dropLast,
      (l.vertex y).IsClear d a b w h (s + y.col * c) (t + y.row * c)) :
  (p :: (rest.dropLast.map l.vertex ++ [q])).IsChain fun p q =>
    ∀ first, (p :: (Polyline.elbow p q first ++ [q])).IsChain (Avoids r.interior)
  := by
  -- The way is followed cell by cell; its last leg leads from an interior vertex to the end of the way.
  rw [abs_sub_comm] at hm hn
  induction rest generalizing x p with
  | nil =>
    rw [List.getLast?_singleton, Option.some.injEq] at hlast
    subst hlast
    apply List.isChain_pair.mpr
    apply isChain_leg hr hc hcd hp hq
    · omega
    · omega
    · omega
  | cons y rest ih =>
    obtain ⟨hxy, hrest⟩ := List.isChain_cons_cons.mp hchain
    obtain ⟨hcol, hrow, hstraight⟩ := hxy.offset hc s t
    rw [List.getLast?_cons_cons] at hlast
    cases rest with
    | nil =>
      rw [List.getLast?_singleton, Option.some.injEq] at hlast
      subst hlast
      -- The last vertex is within a half cell of the end along one axis, three halves along the other.
      apply List.isChain_pair.mpr
      have hm' := abs_sub_le (s + x.col * c) (s + y.col * c) m'
      have hn' := abs_sub_le (t + x.row * c) (t + y.row * c) n'
      apply isChain_leg hr hc hcd hp hq
      · omega
      · omega
      · rcases hstraight with heq | heq
        · left
          rwa [heq]
        · right
          rwa [heq]
    | cons z others =>
      have hy := hclear y List.mem_cons_self
      rw [List.dropLast_cons_cons, List.map_cons, List.cons_append]
      apply List.isChain_cons_cons.mpr
      constructor
      · apply isChain_leg hr hc hcd hp hy
        · omega
        · omega
        · rcases hstraight with heq | heq
          · left
            rw [heq, sub_self, abs_zero]
            omega
          · right
            rw [heq, sub_self, abs_zero]
            omega
      · apply ih hy hrest hlast
        intro v hv
        apply hclear v (List.mem_cons_of_mem y hv)

end Legs

/-! ### Vertices of a way -/

/-- The vertices of a way lie in none of the rectangles, apart from the goal. -/
theorem Grid.not_contains_vertex {l : Lattice} {rects : List Rect} {r : Rect} {origin : Point}
    {start goal cell : Cell} {s t c : ℤ} (hl : l.IsExact s t c) (hr : r ∈ rects)
    (hconfined : r.IsConfined) (horigin : origin.IsAt (s + start.col * c) (t + start.row * c))
    (hout : r.contains origin = false) (hstart : l.inBounds start = true)
    (hgoal : l.inBounds goal = true) (hcell : l.inBounds cell = true)
    (hfree : (((ofRects l rects).free start).free goal).isBlocked cell = false) (hne : cell ≠ goal) :
  r.contains (l.vertex cell) = false
  := by
  have ⟨a, b, a', b', hspans, _⟩ := hconfined
  by_cases hcs : cell = start
  · subst hcs
    rw [← Bool.not_eq_true, hspans.contains_iff (hl.vertex hcell), ← hspans.contains_iff horigin,
      hout]
    exact Bool.false_ne_true
  · rw [isBlocked_free hgoal hcell hne, isBlocked_free hstart hcell hcs] at hfree
    rw [← Bool.not_eq_true]
    intro hin
    rw [isBlocked_ofRects hl hr hconfined hcell hin] at hfree
    contradiction

/-! ### Connectors with room -/

/-- The number is an integer of magnitude at most a million. -/
def Single.IsModest (x : Float32) : Prop :=
  ∃ n : ℤ, IsWhole x n ∧ |n| ≤ 1000000

namespace Connector

/-- All numbers of the connector are modest, and the lengths fit together: the pitch of the grid is at
least one and at most four thirds of the padding, and a stub is at most twice as long as the padding. -/
structure IsRoomy (c : Connector) : Prop where
  start : IsModest c.start.point.x ∧ IsModest c.start.point.y
  finish : IsModest c.finish.point.x ∧ IsModest c.finish.point.y
  obstacles : ∀ o ∈ c.obstacles, IsModest o.rect.x ∧ IsModest o.rect.y ∧ IsModest o.rect.width
    ∧ IsModest o.rect.height
  gridSize : IsModest c.spacing.gridSize
  padding : IsModest c.spacing.padding
  stubLength : IsModest c.spacing.stubLength
  margin : IsModest c.tuning.margin
  one_le_gridSize : 1 ≤ value c.spacing.gridSize
  gridSize_le : 3 * value c.spacing.gridSize ≤ 4 * value c.spacing.padding
  stubLength_nonneg : 0 ≤ value c.spacing.stubLength
  stubLength_le : value c.spacing.stubLength ≤ 2 * value c.spacing.padding
  margin_nonneg : 0 ≤ value c.tuning.margin

/-- The point lies neither in an obstacle grown by the padding nor on its border. -/
def IsOutside (c : Connector) (p : Point) : Prop :=
  ∀ r ∈ c.padded, r.contains p = false

/-- The end of a stub is along one axis from its anchor, no farther than the stub is long. -/
theorem exists_stubEnd {spacing : RouteSpacing} {a : Anchor} {m n k : ℤ} (ha : a.point.IsAt m n)
    (hm : |m| ≤ 1000000) (hn : |n| ≤ 1000000) (hk : IsWhole spacing.stubLength k) (hk' : 0 ≤ k)
    (hk'' : k ≤ 1000000) :
  ∃ m' n', (stubEnd spacing a).IsAt m' n' ∧ (|m'| ≤ 2000000 ∧ |n'| ≤ 2000000)
    ∧ (|m - m'| ≤ k ∧ |n - n'| ≤ k) ∧ (m = m' ∨ n = n')
  := by
  rw [stubEnd]
  cases a.side with
  | none =>
    refine ⟨m, n, ha, ⟨by omega, by omega⟩, ⟨?_, ?_⟩, Or.inl rfl⟩
    · rwa [sub_self, abs_zero]
    · rwa [sub_self, abs_zero]
  | some side =>
    obtain ⟨i, j, hi, hj, hi', hj', hij⟩ := Side.isWhole_normal side
    -- The normal is a unit step along one axis.
    have hmul : ∀ {i : ℤ}, |i| ≤ 1 → |i * k| ≤ k := by
      intro i hi
      rw [abs_mul, abs_of_nonneg hk']
      apply mul_le_of_le_one_left hk' hi
    have hik := hmul hi'
    have hjk := hmul hj'
    rw [abs_le] at hm hn
    refine ⟨m + i * k, n + j * k, ⟨?_, ?_⟩, ⟨?_, ?_⟩, ⟨?_, ?_⟩, ?_⟩
    · apply ha.x.add (hi.mul hk _)
      · rw [abs_le] at hik ⊢
        omega
      · omega
    · apply ha.y.add (hj.mul hk _)
      · rw [abs_le] at hjk ⊢
        omega
      · omega
    · rw [abs_le] at hik ⊢
      omega
    · rw [abs_le] at hjk ⊢
      omega
    · rwa [sub_add_cancel_left, abs_neg]
    · rwa [sub_add_cancel_left, abs_neg]
    · rcases hij with rfl | rfl
      · left
        rw [zero_mul, add_zero]
      · right
        rw [zero_mul, add_zero]

/-- The lengths of a roomy connector are whole and within bounds. -/
theorem IsRoomy.exists_lengths {c : Connector} (h : c.IsRoomy) :
  ∃ g d k e : ℤ, IsWhole c.spacing.gridSize g ∧ IsWhole c.spacing.padding d
    ∧ IsWhole c.spacing.stubLength k ∧ IsWhole c.tuning.margin e
    ∧ (1 ≤ g ∧ g ≤ 1000000) ∧ (|d| ≤ 1000000 ∧ 3 * g ≤ 4 * d)
    ∧ (0 ≤ k ∧ k ≤ 1000000 ∧ k ≤ 2 * d) ∧ 0 ≤ e ∧ e ≤ 1000000
  := by
  obtain ⟨g, hg, hg'⟩ := h.gridSize
  obtain ⟨d, hd, hd'⟩ := h.padding
  obtain ⟨k, hk, hk'⟩ := h.stubLength
  obtain ⟨e, he, he'⟩ := h.margin
  have hone := h.one_le_gridSize
  have hgrid := h.gridSize_le
  have hnonneg := h.stubLength_nonneg
  have hstub := h.stubLength_le
  have hmargin := h.margin_nonneg
  rw [hg.value_eq] at hone hgrid
  rw [hd.value_eq] at hgrid hstub
  rw [hk.value_eq] at hnonneg hstub
  rw [he.value_eq] at hmargin
  refine ⟨g, d, k, e, hg, hd, hk, he, ⟨?_, (abs_le.mp hg').2⟩, ⟨hd', ?_⟩,
    ⟨?_, (abs_le.mp hk').2, ?_⟩, ?_, (abs_le.mp he').2⟩
  · exact_mod_cast hone
  · exact_mod_cast hgrid
  · exact_mod_cast hnonneg
  · exact_mod_cast hstub
  · exact_mod_cast hmargin

/-- The obstacles grown by the padding are confined. -/
theorem IsRoomy.isConfined {c : Connector} (h : c.IsRoomy) {r : Rect} (hr : r ∈ c.padded) :
  r.IsConfined
  := by
  obtain ⟨d, hd, hd'⟩ := h.padding
  obtain ⟨o, ho, rfl⟩ := List.mem_map.mp hr
  obtain ⟨⟨a, ha, ha'⟩, ⟨b, hb, hb'⟩, ⟨w, hw, hw'⟩, ⟨k, hk, hk'⟩⟩ := h.obstacles o ho
  have hspans := Rect.IsAt.inflate ⟨ha, hb, hw, hk⟩ hd (ha'.trans (by norm_num))
    (hb'.trans (by norm_num)) hw' hk' hd'
  rw [abs_le] at ha' hb' hw' hk' hd'
  exact ⟨_, _, _, _, hspans, by omega, by omega⟩

/-- Two points with exact coordinates, apart from each other along one axis only, by at most `k`. -/
def IsStub (k : ℤ) (p q : Point) : Prop :=
  ∃ m n m' n', (p.IsAt m n ∧ |m| ≤ 5000000 ∧ |n| ≤ 5000000)
    ∧ (q.IsAt m' n' ∧ |m'| ≤ 5000000 ∧ |n'| ≤ 5000000)
    ∧ (|m - m'| ≤ k ∧ |n - n'| ≤ k) ∧ (m = m' ∨ n = n')

/-- The integers behind a connector on its lattice, of which the corner is at `s` and `t` and the pitch
is `g`, where the padding is `d`. The way through the grid begins on a vertex and ends at most half a
pitch beside one. -/
structure IsLaid (c : Connector) (l : Lattice) (s t g d : ℤ) : Prop where
  isExact : l.IsExact s t g
  padding : IsWhole c.spacing.padding d
  pitch_nonneg : 0 ≤ g
  pitch_le : 3 * g ≤ 4 * d
  lead : IsStub (2 * d) c.start.point c.routingStart
  trailing : IsStub (2 * d) c.finish.point c.routingFinish
  start : c.routingStart.IsAt (s + (l.nearestCell c.routingStart).col * g)
    (t + (l.nearestCell c.routingStart).row * g)
  start_inBounds : l.inBounds (l.nearestCell c.routingStart) = true
  finish : ∀ m n, c.routingFinish.IsAt m n →
    2 * |m - (s + (l.nearestCell c.routingFinish).col * g)| ≤ g
    ∧ 2 * |n - (t + (l.nearestCell c.routingFinish).row * g)| ≤ g
  finish_inBounds : l.inBounds (l.nearestCell c.routingFinish) = true

/-- A connector with room is laid on its lattice. -/
theorem IsRoomy.exists_isLaid {c : Connector} (h : c.IsRoomy) {l : Lattice}
    (hcover : Lattice.cover? c.routingStart
      [c.start.point, c.finish.point, c.routingStart, c.routingFinish] c.padded c.spacing.gridSize
      c.tuning.margin = some l) :
  ∃ s t g d, c.IsLaid l s t g d
  := by
  obtain ⟨g, d, k, e, hg, hd, hk, he, hgone, ⟨-, hgd⟩, hkone, heone⟩ := h.exists_lengths
  obtain ⟨⟨m, hm, hm'⟩, ⟨n, hn, hn'⟩⟩ := h.start
  obtain ⟨⟨u, hu, hu'⟩, ⟨v, hv, hv'⟩⟩ := h.finish
  -- Both stubs end within reach, so the lattice that covers their ends is exact.
  obtain ⟨i, j, hstart, hij, hlead, hlead'⟩ :=
    exists_stubEnd ⟨hm, hn⟩ hm' hn' hk hkone.1 hkone.2.1
  obtain ⟨x, y, hfinish, hxy, htrailing, htrailing'⟩ :=
    exists_stubEnd ⟨hu, hv⟩ hu' hv' hk hkone.1 hkone.2.1
  have hpoints : ∀ p ∈ [c.start.point, c.finish.point, c.routingStart, c.routingFinish],
      ∃ m n, p.IsAt m n ∧ |m| ≤ 2000000 ∧ |n| ≤ 2000000 := by
    intro p hp
    simp only [List.mem_cons, List.not_mem_nil, or_false] at hp
    rcases hp with rfl | rfl | rfl | rfl
    · exact ⟨m, n, ⟨hm, hn⟩, by omega, by omega⟩
    · exact ⟨u, v, ⟨hu, hv⟩, by omega, by omega⟩
    · exact ⟨i, j, hstart, hij⟩
    · exact ⟨x, y, hfinish, hxy⟩
  obtain ⟨s, t, hl, horigin, hin⟩ := Lattice.exists_isExact hcover hg hgone.1 hgone.2 he heone.1
    heone.2 hstart (by simp) hpoints fun r hr => h.isConfined hr
  have hstartCell := hl.nearestCell hstart (by omega) (by omega)
    (hin c.routingStart (by simp) i j hstart)
  have hfinishCell := hl.nearestCell hfinish (by omega) (by omega)
    (hin c.routingFinish (by simp) x y hfinish)
  refine ⟨s, t, g, d, ?_⟩
  constructor
  case isExact => apply hl
  case padding => apply hd
  case pitch_nonneg => omega
  case pitch_le => apply hgd
  case lead =>
    refine ⟨m, n, i, j, ⟨⟨hm, hn⟩, ?_, ?_⟩, ⟨hstart, ?_, ?_⟩, ⟨?_, ?_⟩, hlead'⟩
    all_goals omega
  case trailing =>
    refine ⟨u, v, x, y, ⟨⟨hu, hv⟩, ?_, ?_⟩, ⟨hfinish, ?_, ?_⟩, ⟨?_, ?_⟩, htrailing'⟩
    all_goals omega
  case start => apply horigin
  case start_inBounds => apply hstartCell.1
  case finish =>
    intro m n hmn
    obtain rfl := hmn.x.unique hfinish.x
    obtain rfl := hmn.y.unique hfinish.y
    apply hfinishCell.2
  case finish_inBounds => apply hfinishCell.1

section Obstacle

variable {c : Connector} {r : Rect} {p q : Point} {d a b w h : ℤ}

/-- A stub between points outside a padded rectangle does not enter the rectangle. -/
theorem IsStub.avoids {padding : Float32} (hpq : IsStub (2 * d) p q) (hd : 0 ≤ d)
    (hr : r.IsAt a b w h)
    (hspans : (r.inflate padding).Spans (a - d) (a + w + d) (b - d) (b + h + d))
    (hp : (r.inflate padding).contains p = false) (hq : (r.inflate padding).contains q = false) :
  Avoids r.interior p q
  := by
  obtain ⟨m, n, m', n', ⟨hmn, hm, hn⟩, ⟨hmn', hm', hn'⟩, ⟨hx, hy⟩, haxis⟩ := hpq
  apply avoids_straight hr hd _ _ hx hy haxis
  · apply Point.isClear_of_not_contains hspans hmn hm hn hp
  · apply Point.isClear_of_not_contains hspans hmn' hm' hn' hq

/-- The draft along a way through the grid keeps out of an obstacle. -/
theorem IsLaid.isChain_draft {l : Lattice} {s t g : ℤ} (hlaid : c.IsLaid l s t g d)
    (hr : r.IsAt a b w h)
    (hspans : (r.inflate c.spacing.padding).Spans (a - d) (a + w + d) (b - d) (b + h + d))
    (hout : ∀ p ∈ [c.start.point, c.finish.point, c.routingStart, c.routingFinish],
      (r.inflate c.spacing.padding).contains p = false)
    {cells : List Cell} (hhead : cells.head? = some (l.nearestCell c.routingStart))
    (hlast : cells.getLast? = some (l.nearestCell c.routingFinish))
    (hchain : cells.IsChain Cell.IsNeighbour)
    (hcells : ∀ y ∈ cells.tail.dropLast, l.inBounds y = true
      ∧ (r.inflate c.spacing.padding).contains (l.vertex y) = false) :
  (c.draft (some (cells.tail.dropLast.map l.vertex))).IsChain (Avoids r.interior)
  := by
  have hg := hlaid.pitch_nonneg
  have hgd := hlaid.pitch_le
  have hd : 0 ≤ d := by omega
  have hstart := hout c.routingStart (by simp)
  have hfinish := hout c.routingFinish (by simp)
  apply Connector.isChain_draft
  · apply hlaid.lead.avoids hd hr hspans (hout c.start.point (by simp)) hstart
  · apply isChain_along
    obtain ⟨-, -, m, n, -, ⟨hmn, hm, hn⟩, -⟩ := hlaid.trailing
    obtain ⟨hx, hy⟩ := hlaid.finish m n hmn
    obtain ⟨hx', hy'⟩ := hlaid.isExact.vertex_bounds hlaid.start_inBounds
    cases cells with
    | nil => contradiction
    | cons x rest =>
      obtain rfl := Option.some.inj hhead
      apply isChain_stops hr hg hgd l _ hx hy _ hchain hlast
      · intro y hy
        obtain ⟨hin, hcontains⟩ := hcells y hy
        obtain ⟨hcol, hrow⟩ := hlaid.isExact.vertex_bounds hin
        apply Point.isClear_of_not_contains hspans (hlaid.isExact.vertex hin) hcol hrow hcontains
      · apply Point.isClear_of_not_contains hspans hmn hm hn hfinish
      · apply Point.isClear_of_not_contains hspans hlaid.start hx' hy' hstart
  · apply Avoids.symm
    apply hlaid.trailing.avoids hd hr hspans (hout c.finish.point (by simp)) hfinish

end Obstacle

/-- Suppose that the numbers of a connector are modest integers and its lengths fit together, and that
its ends and the ends of its stubs lie outside of all obstacles grown by the padding. When the search
finds a way through the grid, whatever its penalties, the connector is drawn, and no segment of it
meets the interior of an obstacle. -/
theorem route?_avoids (c : Connector) {g : Grid} {cells : List Cell} (hroom : c.IsRoomy)
    (hout : ∀ p ∈ [c.start.point, c.finish.point, c.routingStart, c.routingFinish], c.IsOutside p)
    (hgrid : c.grid? = some g) (hway : (c.questOn g).solve? = some (some cells)) :
  ∃ path, c.route? = some path ∧ ∀ o ∈ c.obstacles,
    path.IsChain fun p q => Disjoint (segment ℝ p.place q.place) o.rect.interior
  := by
  refine ⟨_, route?_eq_some hgrid hway, ?_⟩
  intro o ho
  obtain ⟨l, rfl, hcover⟩ := grid?_eq_some hgrid
  obtain ⟨s, t, k, d, hlaid⟩ := hroom.exists_isLaid hcover
  have hstart : (c.questOn (Grid.ofRects l c.padded)).Has
      (c.questOn (Grid.ofRects l c.padded)).startPose := hlaid.start_inBounds
  obtain ⟨hhead, hlast, hchain⟩ := Quest.isChain_of_solve? hstart hway
  have hgoal := Quest.ne_goal_of_solve? hstart hway
  have hfree := Quest.free_of_isChain hchain hhead
    ⟨hstart, Grid.isBlocked_free_eq_false Grid.isBlocked_free_self⟩
  obtain ⟨⟨a, ha, ha'⟩, ⟨b, hb, hb'⟩, ⟨w, hw, hw'⟩, ⟨h, hh, hh'⟩⟩ := hroom.obstacles o ho
  have hd : |d| ≤ 1000000 := by
    obtain ⟨n, hn, hn'⟩ := hroom.padding
    rwa [hlaid.padding.unique hn]
  have hspans := Rect.IsAt.inflate ⟨ha, hb, hw, hh⟩ hlaid.padding (ha'.trans (by norm_num))
    (hb'.trans (by norm_num)) hw' hh' hd
  have hmem : o.rect.inflate c.spacing.padding ∈ c.padded := List.mem_map_of_mem ho
  -- The draft avoids the interior leg by leg, and simplifying keeps that.
  have havoids : (c.draft (some (cells.tail.dropLast.map l.vertex))).IsChain
      (Avoids o.rect.interior) := by
    apply hlaid.isChain_draft ⟨ha, hb, hw, hh⟩ hspans _ hhead hlast (hchain.imp fun _ _ h => h.1)
    · intro y hy
      rw [← List.tail_dropLast] at hy
      obtain ⟨hin, hunblocked⟩ := hfree y (List.mem_of_mem_dropLast (List.mem_of_mem_tail hy))
      use hin
      apply Grid.not_contains_vertex hlaid.isExact hmem (hroom.isConfined hmem) hlaid.start
        (hout c.routingStart (by simp) _ hmem) hlaid.start_inBounds hlaid.finish_inBounds hin
        hunblocked
      apply hgoal y (List.mem_of_mem_tail hy)
    · intro p hp
      apply hout p hp _ hmem
  apply (Polyline.isChain_avoids_simplify havoids).imp
  intro p q hpq
  apply hpq.disjoint

/-- A connector that goes around an obstacle and ends beside a vertex of its grid. -/
def beneath : Connector :=
  ⟨⟨⟨-1.0, 0.0⟩, some .right⟩, ⟨⟨14.0, 1.0⟩, some .left⟩, [⟨"box", ⟨5.0, -1.0, 2.0, 1.0⟩⟩],
    ⟨4.0, 3.0, 1.0⟩, { margin := 0.0 }⟩

theorem isRoomy_beneath :
  beneath.IsRoomy
  := by
  have hnat : ∀ {x : Float32} {n : ℕ}, x = Float32.ofNat n → n ≤ 1000000 → IsWhole x n := by
    rintro x n rfl hn
    apply isWhole_ofNat
    omega
  have hgrid : IsWhole beneath.spacing.gridSize 4 := hnat (by decide +kernel) (by norm_num)
  have hpadding : IsWhole beneath.spacing.padding 3 := hnat (by decide +kernel) (by norm_num)
  have hstub : IsWhole beneath.spacing.stubLength 1 := isWhole_one
  have hmargin : IsWhole beneath.tuning.margin 0 := isWhole_zero
  have hfive : IsWhole 5.0 5 := hnat (by decide +kernel) (by norm_num)
  have hfourteen : IsWhole 14.0 14 := hnat (by decide +kernel) (by norm_num)
  constructor
  case start => exact ⟨⟨_, isWhole_one.neg, by norm_num⟩, ⟨_, isWhole_zero, by norm_num⟩⟩
  case finish => exact ⟨⟨_, hfourteen, by norm_num⟩, ⟨_, isWhole_one, by norm_num⟩⟩
  case obstacles =>
    intro o ho
    obtain rfl := List.mem_singleton.mp ho
    exact ⟨⟨_, hfive, by norm_num⟩, ⟨_, isWhole_one.neg, by norm_num⟩,
      ⟨_, isWhole_two, by norm_num⟩, ⟨_, isWhole_one, by norm_num⟩⟩
  case gridSize => exact ⟨_, hgrid, by norm_num⟩
  case padding => exact ⟨_, hpadding, by norm_num⟩
  case stubLength => exact ⟨_, hstub, by norm_num⟩
  case margin => exact ⟨_, hmargin, by norm_num⟩
  case one_le_gridSize =>
    rw [hgrid.value_eq]
    norm_num
  case gridSize_le =>
    rw [hgrid.value_eq, hpadding.value_eq]
    norm_num
  case stubLength_nonneg =>
    rw [hstub.value_eq]
    norm_num
  case stubLength_le =>
    rw [hstub.value_eq, hpadding.value_eq]
    norm_num
  case margin_nonneg =>
    rw [hmargin.value_eq]
    norm_num

/-- The route beneath the box does not enter it. -/
theorem route?_avoids_beneath :
  beneath.IsRoomy
    ∧ (∀ p ∈ [beneath.start.point, beneath.finish.point, beneath.routingStart,
        beneath.routingFinish], beneath.IsOutside p)
    ∧ ∃ g cells, beneath.grid? = some g ∧ (beneath.questOn g).solve? = some (some cells)
      ∧ ∃ path, beneath.route? = some path ∧ ∀ o ∈ beneath.obstacles,
        path.IsChain fun p q => Disjoint (segment ℝ p.place q.place) o.rect.interior
  := by
  have hpenalties : beneath.tuning.HasPenalties := by decide
  have hout : ∀ p ∈ [beneath.start.point, beneath.finish.point, beneath.routingStart,
      beneath.routingFinish], beneath.IsOutside p := by
    unfold IsOutside
    decide +kernel
  have hmeet : (beneath.grid?.any fun g => (beneath.questOn g).meet?.isSome
      && g.lattice.inBounds (beneath.questOn g).start) = true := by
    decide +kernel
  obtain ⟨g, hgrid, hmet⟩ := (Option.any_eq_true _ _).mp hmeet
  obtain ⟨hfound, hstart⟩ := Bool.and_eq_true_iff.mp hmet
  have hhas : (beneath.questOn g).Has (beneath.questOn g).startPose := hstart
  obtain ⟨cells, hway⟩ :=
    Quest.exists_way_of_meet? hhas (Quest.isSteady_of_hasPenalties hpenalties) hfound
  refine ⟨isRoomy_beneath, hout, g, cells, hgrid, hway, ?_⟩
  apply route?_avoids beneath isRoomy_beneath hout hgrid hway

end Connector

end DiagramLayout
