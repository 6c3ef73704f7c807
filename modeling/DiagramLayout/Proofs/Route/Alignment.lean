import DiagramLayout.Proofs.Route.Draft
import DiagramLayout.Proofs.Route.Reach
import DiagramLayout.Proofs.Route.Reachability

/-!
# Connectors run along the axes

The ends of each leg of a draft agree in one coordinate, up to the tolerance below which no elbow is
put between them. A point is dropped only if it is close to a point that is kept, or in one column or
row with it. So the error of a leg is measured against a point that is kept, and it does not add up
over long runs of dropped points: it stays below twice the tolerance.
-/

namespace DiagramLayout

open Single

/-! ### The tolerance -/

section Tolerance

variable {x y z : Float32}

/-- A difference within the tolerance is small before it is rounded as well. -/
theorem abs_sub_lt_of_le_tolerance (hx : Single.IsWithin x 52) (hy : Single.IsWithin y 52)
    (h : (x - y).abs ≤ Point.tolerance) :
  |value x - value y| < 1 / 2 ^ 13
  := by
  have hdiff := (hx.sub hy (by norm_num)).isRational
  have hvalue := (isNearest_sub hx.isRational hy.isRational).value_eq_rounded hdiff
  have hle := (le_iff.mp h).2.2
  rw [(isRational_abs hdiff).2, hvalue, abs_rounded, value_tolerance_eq] at hle
  have hsingle : IsSingle (1 / 2 ^ 13) := ⟨1, -13, by norm_num, by norm_num, by norm_num⟩
  by_contra! hge
  have hmono := rounded_mono hge
  rw [rounded_of_isSingle hsingle] at hmono
  norm_num at hle hmono
  linarith

/-- Two small differences add up to one of at most twice their size. -/
theorem abs_sub_lt_of_abs_sub_lt {a b c : ℚ} (hab : |a - b| < 1 / 2 ^ 13)
    (hbc : |b - c| < 1 / 2 ^ 13) :
  |a - c| < 1 / 2 ^ 12
  := by
  have hle := abs_sub_le a b c
  linarith

/-- A distance of bounded numbers that is not over the tolerance is within it. -/
theorem le_tolerance_of_not_lt (hx : Single.IsWithin x 52) (hy : Single.IsWithin y 52)
    (h : ¬Point.tolerance < (x - y).abs) :
  (x - y).abs ≤ Point.tolerance
  := by
  apply le_of_not_lt value_tolerance.1 _ h
  apply (isRational_abs (hx.sub hy (by norm_num)).isRational).1.isNumber

/-- A multiple of zero does not move a coordinate. -/
theorem value_add_mul_of_isWhole_zero (hx : IsRational x) (hy : IsRational y) (hz : IsWhole z 0) :
  value (x + z * y) = value x
  := by
  have hproduct := isNearest_mul hz.isRational hy
  rw [hz.value_eq, Int.cast_zero, zero_mul, ← Int.cast_zero] at hproduct
  have hzero := hproduct.isWhole (by norm_num)
  have hsum := isNearest_add hx hzero.isRational
  rw [hzero.value_eq, Int.cast_zero, add_zero] at hsum
  exact hsum.value_eq.trans hx.isNumber.isNearest.value_eq.symm

end Tolerance

/-! ### Aligned points -/

/-- Two points within reach, of which one coordinate differs by less than `d`. -/
structure IsAligned (d : ℚ) (p q : Point) : Prop where
  left : p.IsWithin 52
  right : q.IsWithin 52
  near : |value p.x - value q.x| < d ∨ |value p.y - value q.y| < d

section Alignment

variable {p q r : Point} {d : ℚ}

theorem IsAligned.symm (h : IsAligned d p q) :
  IsAligned d q p
  := by
  use h.right, h.left
  rw [abs_sub_comm (value q.x), abs_sub_comm (value q.y)]
  apply h.near

/-- Points stay aligned when more difference is allowed. -/
theorem IsAligned.mono {d' : ℚ} (h : IsAligned d p q) (hd : d ≤ d') :
  IsAligned d' p q
  := by
  use h.left, h.right
  rcases h.near with hx | hy
  · exact Or.inl (hx.trans_le hd)
  · exact Or.inr (hy.trans_le hd)

/-- Points with an equal coordinate are aligned. -/
theorem isAligned_of_value_eq (hp : p.IsWithin 52) (hq : q.IsWithin 52) (hd : 0 < d)
    (h : value p.x = value q.x ∨ value p.y = value q.y) :
  IsAligned d p q
  := by
  use hp, hq
  rcases h with hx | hy
  · left
    rwa [hx, sub_self, abs_zero]
  · right
    rwa [hy, sub_self, abs_zero]

/-- The error of a leg is at most doubled when its first point is replaced by one close to it. -/
theorem IsAligned.of_isClose (hp : p.IsWithin 52) (hqr : IsAligned (1 / 2 ^ 13) q r)
    (h : p.isClose q = true) :
  IsAligned (1 / 2 ^ 12) p r
  := by
  simp only [Point.isClose, Bool.and_eq_true, decide_eq_true_eq] at h
  have hx := abs_sub_lt_of_le_tolerance hp.x hqr.left.x h.1
  have hy := abs_sub_lt_of_le_tolerance hp.y hqr.left.y h.2
  use hp, hqr.right
  rcases hqr.near with hnear | hnear
  · exact Or.inl (abs_sub_lt_of_abs_sub_lt hx hnear)
  · exact Or.inr (abs_sub_lt_of_abs_sub_lt hy hnear)

/-- The ends of a straight run of two legs are aligned, however the legs themselves are. -/
theorem isAligned_of_isStraight (hp : p.IsWithin 52) (hq : q.IsWithin 52) (hr : r.IsWithin 52)
    (h : Polyline.isStraight p q r = true) :
  IsAligned (1 / 2 ^ 12) p r
  := by
  simp only [Polyline.isStraight, Bool.or_eq_true, Bool.and_eq_true, decide_eq_true_eq] at h
  use hp, hr
  rcases h with ⟨hpq, hqr⟩ | ⟨hpq, hqr⟩
  · left
    apply abs_sub_lt_of_abs_sub_lt
    · apply abs_sub_lt_of_le_tolerance hp.x hq.x hpq
    · apply abs_sub_lt_of_le_tolerance hq.x hr.x hqr
  · right
    apply abs_sub_lt_of_abs_sub_lt
    · apply abs_sub_lt_of_le_tolerance hp.y hq.y hpq
    · apply abs_sub_lt_of_le_tolerance hq.y hr.y hqr

/-- The simplified polyline is aligned up to twice the error of the polyline. -/
theorem Polyline.isChain_isAligned_simplify {ps : List Point}
    (h : ps.IsChain (IsAligned (1 / 2 ^ 13))) :
  (simplify ps).IsChain (IsAligned (1 / 2 ^ 12))
  := by
  cases ps with
  | nil => apply List.isChain_nil
  | cons p rest =>
    apply isChain_dropMiddles (fun _ _ h => h)
    · intro p q r _ hrun hpq hqr
      apply isAligned_of_isStraight hpq.left hqr.left hqr.right hrun
    · apply isChain_dropRepeats _ _ h
      · intro p q hpq
        apply hpq.mono (by norm_num)
      · intro p q r hclose hpq hqr
        apply IsAligned.of_isClose hpq.left hqr hclose

/-- A leg between two points is aligned, with its elbow if it needs one. -/
theorem Polyline.isChain_isAligned_elbow (hp : p.IsWithin 52) (hq : q.IsWithin 52) (first : Bool) :
  (p :: (elbow p q first ++ [q])).IsChain (IsAligned (1 / 2 ^ 13))
  := by
  rw [elbow]
  split_ifs with hdiff hfirst
  · have hk : Point.IsWithin ⟨q.x, p.y⟩ 52 := ⟨hq.x, hp.y⟩
    simp only [List.singleton_append, List.isChain_cons_cons, List.isChain_singleton, and_true]
    constructor
    · apply isAligned_of_value_eq hp hk (by norm_num) (Or.inr rfl)
    · apply isAligned_of_value_eq hk hq (by norm_num) (Or.inl rfl)
  · have hk : Point.IsWithin ⟨p.x, q.y⟩ 52 := ⟨hp.x, hq.y⟩
    simp only [List.singleton_append, List.isChain_cons_cons, List.isChain_singleton, and_true]
    constructor
    · apply isAligned_of_value_eq hp hk (by norm_num) (Or.inl rfl)
    · apply isAligned_of_value_eq hk hq (by norm_num) (Or.inr rfl)
  · rw [List.nil_append]
    apply List.isChain_pair.mpr
    apply IsAligned.symm
    use hq, hp
    rw [Bool.and_eq_true, decide_eq_true_eq, decide_eq_true_eq, not_and_or] at hdiff
    rcases hdiff with hx | hy
    · left
      apply abs_sub_lt_of_le_tolerance hq.x hp.x (le_tolerance_of_not_lt hq.x hp.x hx)
    · right
      apply abs_sub_lt_of_le_tolerance hq.y hp.y (le_tolerance_of_not_lt hq.y hp.y hy)

end Alignment

/-! ### Tame connectors -/

/-- The number is finite and of magnitude at most a million. -/
structure Single.IsTame (x : Float32) : Prop where
  isRational : IsRational x
  abs_le : |value x| ≤ 1000000

/-- A number is tame when it lies between minus a million and a million. -/
theorem Single.isTame_iff {x : Float32} :
  IsTame x ↔ -1000000.0 ≤ x ∧ x ≤ 1000000.0
  := by
  have hmillion : IsWhole 1000000.0 1000000 := by
    have hwhole : IsWhole (Float32.ofNat 1000000) (1000000 : ℕ) := isWhole_ofNat (by norm_num)
    apply hwhole
  rw [le_iff, le_iff, hmillion.value_eq, hmillion.neg.value_eq]
  push_cast
  constructor
  · rintro ⟨hx, hle⟩
    obtain ⟨hlow, hhigh⟩ := abs_le.mp hle
    exact ⟨⟨hmillion.neg.isNumber, hx.isNumber, hlow⟩, hx.isNumber, hmillion.isNumber, hhigh⟩
  · rintro ⟨⟨-, hx, hlow⟩, -, -, hhigh⟩
    have hle : |value x| ≤ 1000000 := abs_le.mpr ⟨hlow, hhigh⟩
    exact ⟨hx.isRational (hle.trans_lt (by norm_num)), hle⟩

instance : DecidablePred Single.IsTame :=
  fun _ => decidable_of_iff' _ Single.isTame_iff

theorem Single.IsTame.isWithin {x : Float32} (h : IsTame x) :
  IsWithin x 20
  := by
  use h.isRational
  apply h.abs_le.trans (by norm_num)

namespace Connector

/-- All numbers of the connector, its penalties apart, are finite and of magnitude at most a
million. -/
structure IsTame (c : Connector) : Prop where
  start : Single.IsTame c.start.point.x ∧ Single.IsTame c.start.point.y
  finish : Single.IsTame c.finish.point.x ∧ Single.IsTame c.finish.point.y
  obstacles : ∀ o ∈ c.obstacles, Single.IsTame o.rect.x ∧ Single.IsTame o.rect.y
    ∧ Single.IsTame o.rect.width ∧ Single.IsTame o.rect.height
  gridSize : Single.IsTame c.spacing.gridSize
  padding : Single.IsTame c.spacing.padding
  stubLength : Single.IsTame c.spacing.stubLength
  margin : Single.IsTame c.tuning.margin

instance (c : Connector) : Decidable c.IsTame :=
  decidable_of_iff ((Single.IsTame c.start.point.x ∧ Single.IsTame c.start.point.y)
      ∧ (Single.IsTame c.finish.point.x ∧ Single.IsTame c.finish.point.y)
      ∧ (∀ o ∈ c.obstacles, Single.IsTame o.rect.x ∧ Single.IsTame o.rect.y
        ∧ Single.IsTame o.rect.width ∧ Single.IsTame o.rect.height)
      ∧ Single.IsTame c.spacing.gridSize ∧ Single.IsTame c.spacing.padding
      ∧ Single.IsTame c.spacing.stubLength ∧ Single.IsTame c.tuning.margin)
    ⟨fun ⟨hstart, hfinish, hobstacles, hgrid, hpadding, hstub, hmargin⟩ =>
        ⟨hstart, hfinish, hobstacles, hgrid, hpadding, hstub, hmargin⟩,
      fun h => ⟨h.start, h.finish, h.obstacles, h.gridSize, h.padding, h.stubLength, h.margin⟩⟩

/-- A stub is exactly straight. -/
theorem isAligned_stubEnd {spacing : RouteSpacing} {a : Anchor} (ha : a.point.IsWithin 20)
    (hk : Single.IsWithin spacing.stubLength 20) {d : ℚ} (hd : 0 < d) :
  (stubEnd spacing a).IsWithin 21 ∧ IsAligned d a.point (stubEnd spacing a)
  := by
  rw [stubEnd]
  cases a.side with
  | none =>
    refine ⟨ha.mono (by omega), ?_⟩
    apply isAligned_of_value_eq (ha.mono (by omega)) (ha.mono (by omega)) hd (Or.inl rfl)
  | some side =>
    obtain ⟨i, j, hi, hj, hi', hj', hij⟩ := Side.isWhole_normal side
    have hx : Single.IsWithin (side.normal.x * spacing.stubLength) (0 + 20) :=
      (hi.isWithin hi').mul hk (by omega)
    have hy : Single.IsWithin (side.normal.y * spacing.stubLength) (0 + 20) :=
      (hj.isWithin hj').mul hk (by omega)
    have hend : Point.IsWithin ⟨a.point.x + side.normal.x * spacing.stubLength,
        a.point.y + side.normal.y * spacing.stubLength⟩ 21 :=
      ⟨ha.x.add hx (by omega), ha.y.add hy (by omega)⟩
    use hend
    apply isAligned_of_value_eq (ha.mono (by omega)) (hend.mono (by omega)) hd
    rcases hij with rfl | rfl
    · left
      exact (value_add_mul_of_isWhole_zero ha.x.isRational hk.isRational hi).symm
    · right
      exact (value_add_mul_of_isWhole_zero ha.y.isRational hk.isRational hj).symm

/-! ### The search of a connector -/

variable {c : Connector}

/-- The search starts on the grid, wherever the connector starts. -/
theorem has_startPose {g : Grid} (h : c.grid? = some g) :
  (c.questOn g).Has (c.questOn g).startPose
  := by
  obtain ⟨l, rfl, hl⟩ := grid?_eq_some h
  exact Lattice.inBounds_nearestCell hl c.routingStart

/-- With penalties that are not negative, every connector is drawn. -/
theorem exists_gridStops? (c : Connector) (h : c.tuning.HasPenalties) :
  ∃ stops, c.gridStops? = some stops
  := by
  rw [gridStops?]
  cases hg : c.grid? with
  | none => exact ⟨none, rfl⟩
  | some g =>
    have hsteady : (c.questOn g).IsSteady := Quest.isSteady_of_hasPenalties h
    obtain ⟨way, hway⟩ :=
      Option.ne_none_iff_exists'.mp (Quest.solve?_ne_none (has_startPose hg) hsteady)
    simp only [hway, Option.map_some, Option.some.injEq, exists_eq']

/-- A route has a point. -/
theorem route_ne_nil (c : Connector) (h : c.tuning.HasPenalties) :
  c.route ≠ []
  := by
  obtain ⟨stops, hstops⟩ := c.exists_gridStops? h
  rw [route, route?, hstops, Option.map_some, Option.getD_some]
  intro hnil
  have hhead := c.head?_draft stops
  rw [← Polyline.head?_simplify, hnil] at hhead
  contradiction

/-- The stops of a way through the grid are vertices of its lattice. -/
theorem exists_vertex_of_gridStops? {stops : List Point} (h : c.gridStops? = some (some stops)) :
  ∃ g, c.grid? = some g
    ∧ ∀ p ∈ stops, ∃ cell, g.lattice.inBounds cell = true ∧ p = g.lattice.vertex cell
  := by
  rw [gridStops?] at h
  cases hg : c.grid? with
  | none => simp only [hg, Option.some.injEq, reduceCtorEq] at h
  | some g =>
    rw [hg] at h
    obtain ⟨way, hway, hstops⟩ := Option.map_eq_some_iff.mp h
    obtain ⟨cells, rfl, rfl⟩ := Option.map_eq_some_iff.mp hstops
    have hstart := has_startPose hg
    obtain ⟨hhead, -, hchain⟩ := Quest.isChain_of_solve? hstart hway
    have hcells : ∀ d ∈ cells, g.lattice.inBounds d = true := by
      apply hchain.induction (fun d => g.lattice.inBounds d = true) cells
      · intro d e hstep _
        apply hstep.2.1
      · intro hne
        rw [List.head?_eq_some_head hne, Option.some.injEq] at hhead
        rw [hhead]
        apply hstart
    refine ⟨g, rfl, ?_⟩
    intro p hp
    obtain ⟨cell, hcell, rfl⟩ := List.mem_map.mp hp
    exact ⟨cell, hcells cell (List.mem_of_mem_tail (List.mem_of_mem_dropLast hcell)), rfl⟩

/-! ### Points of a draft -/

variable {stops : Option (List Point)}

/-- The points between the stubs are aligned when the stops and the ends of the stubs are within
reach. -/
theorem isChain_isAligned_middle (hstart : c.routingStart.IsWithin 52)
    (hfinish : c.routingFinish.IsWithin 52) (hstops : ∀ ps ∈ stops, ∀ p ∈ ps, p.IsWithin 52) :
  (c.routingStart :: c.middle stops).IsChain (IsAligned (1 / 2 ^ 13))
  := by
  cases stops with
  | some ps =>
    apply isChain_along
    apply List.Pairwise.isChain
    apply List.pairwise_of_forall_mem_list
    have hall : ∀ p ∈ c.routingStart :: (ps ++ [c.routingFinish]), p.IsWithin 52 := by
      intro p hp
      simp only [List.mem_cons, List.mem_append, List.not_mem_nil, or_false] at hp
      rcases hp with rfl | hp | rfl
      · apply hstart
      · apply hstops ps rfl p hp
      · apply hfinish
    intro p hp q hq first
    apply Polyline.isChain_isAligned_elbow (hall p hp) (hall q hq)
  | none =>
    have hcorner : Point.IsWithin ⟨c.routingStart.x, c.routingFinish.y⟩ 52 :=
      ⟨hstart.x, hfinish.y⟩
    apply List.isChain_cons_cons.mpr
    constructor
    · apply isAligned_of_value_eq hstart hcorner (by norm_num) (Or.inl rfl)
    · apply Polyline.isChain_withElbows
      apply List.isChain_pair.mpr
      apply Polyline.isChain_isAligned_elbow hcorner hfinish

/-- The corners of padded obstacles are within bounds. -/
theorem IsTame.isWithin_padded (h : c.IsTame) {r : Rect} (hr : r ∈ c.padded) :
  Single.IsWithin r.x 21 ∧ Single.IsWithin r.y 21
  := by
  obtain ⟨o, ho, rfl⟩ := List.mem_map.mp hr
  obtain ⟨hx, hy, -, -⟩ := h.obstacles o ho
  constructor
  · apply hx.isWithin.sub h.padding.isWithin (by omega)
  · apply hy.isWithin.sub h.padding.isWithin (by omega)

/-- The draft of a tame connector is aligned up to the tolerance. -/
theorem IsTame.isChain_draft (h : c.IsTame) (hstops : c.gridStops? = some stops) :
  (c.draft stops).IsChain (IsAligned (1 / 2 ^ 13))
  := by
  have hk := h.stubLength.isWithin
  have hstart : c.start.point.IsWithin 20 := ⟨h.start.1.isWithin, h.start.2.isWithin⟩
  have hfinish : c.finish.point.IsWithin 20 := ⟨h.finish.1.isWithin, h.finish.2.isWithin⟩
  obtain ⟨hrouting, hlead⟩ := isAligned_stubEnd (d := 1 / 2 ^ 13) hstart hk (by norm_num)
  obtain ⟨hrouting', htrailing⟩ := isAligned_stubEnd (d := 1 / 2 ^ 13) hfinish hk (by norm_num)
  have hpoints : ∀ p ∈ [c.start.point, c.finish.point, c.routingStart, c.routingFinish],
      p.IsWithin 21 := by
    intro p hp
    simp only [List.mem_cons, List.not_mem_nil, or_false] at hp
    rcases hp with rfl | rfl | rfl | rfl
    · apply hstart.mono (by omega)
    · apply hfinish.mono (by omega)
    · apply hrouting
    · apply hrouting'
  apply Connector.isChain_draft hlead _ htrailing.symm
  apply isChain_isAligned_middle (hrouting.mono (by omega)) (hrouting'.mono (by omega))
  rintro ps rfl p hp
  obtain ⟨g, hgrid, hvertex⟩ := exists_vertex_of_gridStops? hstops
  obtain ⟨cell, hcell, rfl⟩ := hvertex p hp
  obtain ⟨l, rfl, hcover⟩ := grid?_eq_some hgrid
  apply Lattice.isWithin_vertex_of_cover? hcover hrouting hpoints _ h.gridSize.isWithin
    h.margin.isWithin hcell
  intro r hr
  apply h.isWithin_padded hr

/-- A connector with finite numbers of moderate magnitude and penalties that are not negative is
drawn with finite points, and each of its legs runs along an axis, up to a thousandth. -/
theorem route?_aligned (c : Connector) (htame : c.IsTame) (hpenalties : c.tuning.HasPenalties) :
  ∃ path, c.route? = some path ∧ (∀ p ∈ path, p.x.isFinite = true ∧ p.y.isFinite = true)
    ∧ path.IsChain fun p q =>
      |value p.x - value q.x| < 1 / 1000 ∨ |value p.y - value q.y| < 1 / 1000
  := by
  obtain ⟨stops, hstops⟩ := c.exists_gridStops? hpenalties
  have hchain := Polyline.isChain_isAligned_simplify (htame.isChain_draft hstops)
  refine ⟨Polyline.simplify (c.draft stops), ?_, ?_, ?_⟩
  · rw [route?, hstops, Option.map_some]
  · have hall : ∀ p ∈ Polyline.simplify (c.draft stops), p.IsWithin 52 := by
      apply hchain.induction (fun p => p.IsWithin 52) _
      · intro p q hpq _
        apply hpq.right
      · intro hne
        have hhead : (Polyline.simplify (c.draft stops)).head hne = c.start.point := by
          apply Option.some.inj
          rw [← List.head?_eq_some_head, Polyline.head?_simplify, head?_draft]
        rw [hhead]
        exact ⟨htame.start.1.isWithin.mono (by omega), htame.start.2.isWithin.mono (by omega)⟩
    intro p hp
    exact ⟨isRational_iff.mp (hall p hp).x.isRational, isRational_iff.mp (hall p hp).y.isRational⟩
  · apply hchain.imp
    intro p q hpq
    rcases hpq.near with hx | hy
    · exact Or.inl (hx.trans (by norm_num))
    · exact Or.inr (hy.trans (by norm_num))

/-- A connector around an obstacle with coordinates that are not whole. -/
def aslant : Connector :=
  ⟨⟨⟨0.1, 0.2⟩, some .right⟩, ⟨⟨60.7, -31.3⟩, some .left⟩, [⟨"box", ⟨20.5, -9.9, 11.1, 33.3⟩⟩], {},
    {}⟩

/-- The route around the obstacle is finite and aligned. -/
theorem route?_aligned_aslant :
  aslant.IsTame ∧ aslant.tuning.HasPenalties
    ∧ ∃ path, aslant.route? = some path ∧ (∀ p ∈ path, p.x.isFinite = true ∧ p.y.isFinite = true)
      ∧ path.IsChain fun p q =>
        |value p.x - value q.x| < 1 / 1000 ∨ |value p.y - value q.y| < 1 / 1000
  := by
  have htame : aslant.IsTame := by decide
  have hpenalties : aslant.tuning.HasPenalties := by decide
  exact ⟨htame, hpenalties, route?_aligned aslant htame hpenalties⟩

end Connector

end DiagramLayout
