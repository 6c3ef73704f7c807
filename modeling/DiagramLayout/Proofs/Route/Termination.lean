import DiagramLayout.Proofs.Route.Costs
import DiagramLayout.Route.Connector

/-!
# The end of the search

A search always ends, because it expands no more poses than it may. Its way back from the goal ends
exactly when no pose on it is put behind itself, which holds when no step after the first lowers a
cost. A turn of negative cost can put a pose behind itself: then the way back goes round in a circle.
-/

namespace DiagramLayout

open Single

namespace Search

variable {q : Quest} {s t : Search} {o p target : Pose} {cost : Float32}

/-- Whether an entry is live depends on the label of its pose alone. -/
theorem isLive_congr {labels labels' : Labels} {e : Entry}
    (h : labels'.find? q e.pose = labels.find? q e.pose) :
  isLive q labels' e = isLive q labels e
  := by
  rw [isLive, isLive, Labels.ticket?_congr h, Labels.cost_congr h]

/-- The entry of the newest cost of a waiting pose is live. -/
theorem isLive_entry {labels : Labels} {label : Label} {ticket : ℕ}
    (h : labels.find? q p = some label) (hticket : label.ticket = some ticket) :
  isLive q labels (q.entry label.cost ticket p) = true
  := by
  have hcost : labels.cost q p = label.cost := Labels.cost_of_find? h
  have hdrawn : labels.ticket? q p = some ticket := by
    rw [Labels.ticket?_of_find? h, hticket]
  simp only [isLive, Quest.entry, hcost, hdrawn, Bool.and_eq_true, beq_self_eq_true, true_and,
    Bool.not_eq_true', decide_eq_false_iff_not]
  apply Single.lt_irrefl

/-- At the beginning only the start has a label. -/
theorem find?_initial {p : Pose} (hstart : q.Has q.startPose) (hp : q.Has p) :
  (initial q).labels.find? q p = if q.startPose = p then some ⟨0.0, none, some 0⟩ else none
  := by
  unfold initial
  rw [Labels.find?_put Array.size_replicate hstart hp]
  congr 1
  unfold Labels.find?
  rw [Array.getElem?_replicate]
  split_ifs
  · rfl
  · rfl

theorem find?_initial_startPose (hstart : q.Has q.startPose) :
  (initial q).labels.find? q q.startPose = some ⟨0.0, none, some 0⟩
  := by
  rw [find?_initial hstart hstart, if_pos rfl]

theorem eq_of_find?_initial {p : Pose} {label : Label} (hstart : q.Has q.startPose) (hp : q.Has p)
    (h : (initial q).labels.find? q p = some label) :
  q.startPose = p ∧ label = ⟨0.0, none, some 0⟩
  := by
  rw [find?_initial hstart hp] at h
  split_ifs at h with heq
  exact ⟨heq, (Option.some.inj h).symm⟩

/-- The pose of an entry that is taken out has a label. -/
theorem exists_find?_taken {e : Entry} {rest : Frontier} (he : q.Has e.pose)
    (hnext : nextLive? q s.labels s.frontier = some (e, rest)) :
  ∃ label, (taken q s e rest).labels.find? q e.pose = some label
  := by
  obtain ⟨label, hlabel, -⟩ := exists_label_of_isLive (isLive_of_nextLive? hnext)
  obtain ⟨found, hfound, -⟩ := Labels.exists_find?_close he he hlabel
  exact ⟨found, hfound⟩

/-! ### Rooted searches -/

/-- Rooted labels and a frontier of poses on the grid. -/
structure Rooted (q : Quest) (s : Search) : Prop where
  labels : s.labels.Rooted q
  frontier : ∀ e ∈ s.frontier, q.Has e.pose

/-- The search begins with rooted labels. -/
theorem rooted_initial (hstart : q.Has q.startPose) :
  (initial q).Rooted q
  := by
  constructor
  case labels =>
    constructor
    case size =>
      unfold initial
      rw [Labels.size_put, Array.size_replicate]
    case start => exact ⟨_, find?_initial_startPose hstart, rfl, rfl⟩
    case before =>
      intro p label hp hlabel hne
      apply absurd (eq_of_find?_initial hstart hp hlabel).1.symm hne
  case frontier =>
    intro e he
    rcases Frontier.mem_push.mp he with rfl | he
    · apply hstart
    · apply absurd he Frontier.not_mem_empty

/-- Reaching a neighbour keeps the search rooted. -/
theorem Rooted.reach (hstart : q.Has q.startPose) (h : s.Rooted q) {step : Float32} {label : Label}
    (ho : q.Has o) (hlabel : s.labels.find? q o = some label) (hmove : (target, step) ∈ q.moves o) :
  (reach q o cost s target).Rooted q
  := by
  constructor
  case labels => apply h.labels.put hstart ho hlabel hmove
  case frontier =>
    intro e he
    rcases Frontier.mem_push.mp he with rfl | he
    · apply Quest.has_of_mem_moves ho hmove
    · apply h.frontier e he

/-- Reaching a pose leaves the labels of the others. -/
theorem find?_reach_of_ne (hs : s.Rooted q) (ht : q.Has target) (hp : q.Has p)
    (hne : target ≠ p) :
  (reach q o cost s target).labels.find? q p = s.labels.find? q p
  := by
  apply Labels.find?_put_of_ne hs.labels.size ht hp hne

/-- A pose keeps its label while a neighbour is reached from it. -/
theorem find?_relax_self {step : Float32} (hs : s.Rooted q) (ho : q.Has o)
    (hmove : (target, step) ∈ q.moves o) :
  (relax q o cost s (target, step)).labels.find? q o = s.labels.find? q o
  := by
  rw [relax_eq]
  split_ifs
  · rfl
  · rw [find?_reach_of_ne hs (Quest.has_of_mem_moves ho hmove) ho (Quest.ne_of_mem_moves ho hmove)]

/-- Taking an entry keeps the search rooted. -/
theorem Rooted.taken (hstart : q.Has q.startPose) (h : s.Rooted q) {e : Entry} {rest : Frontier}
    (hnext : nextLive? q s.labels s.frontier = some (e, rest)) :
  (taken q s e rest).Rooted q
  := by
  obtain ⟨he, hrest⟩ := mem_of_nextLive? hnext
  constructor
  case labels => apply h.labels.close hstart (h.frontier e he)
  case frontier =>
    intro d hd
    apply h.frontier d (hrest d hd)

/-- `Inv` is kept when a neighbour of a pose gets cheaper by way of that pose. -/
def KeptByReach (q : Quest) (p : Pose) (label : Label) (Inv : Search → Prop) : Prop :=
  ∀ s target step, s.Rooted q → Inv s → s.labels.find? q p = some label →
    (target, step) ∈ q.moves p → ¬s.labels.cost q target ≤ label.cost + step →
    Inv (reach q p (label.cost + step) s target)

/-- The pose that comes out keeps its label while its neighbours are reached, and what the reaching of
each neighbour keeps, the expansion keeps. -/
theorem Rooted.expand (hstart : q.Has q.startPose) (h : t.Rooted q) (hp : q.Has p) {label : Label}
    (hlabel : t.labels.find? q p = some label) {Inv : Search → Prop}
    (hreach : KeptByReach q p label Inv) (ht : Inv t) :
  (expand q t p).Rooted q ∧ Inv (expand q t p)
  := by
  have hfold : (Search.expand q t p).labels.find? q p = some label
      ∧ (Search.expand q t p).Rooted q ∧ Inv (Search.expand q t p) := by
    apply expand_preserves fun s => s.labels.find? q p = some label ∧ s.Rooted q ∧ Inv s
    · rintro s ⟨target, step⟩ hmove ⟨hfind, hs, hinv⟩
      use (find?_relax_self hs hp hmove).trans hfind
      rw [Labels.cost_of_find? hlabel, relax_eq]
      split_ifs with hle
      · exact ⟨hs, hinv⟩
      · use hs.reach hstart hp hfind hmove
        apply hreach s target step hs hinv hfind hmove hle
    · exact ⟨hlabel, h, ht⟩
  apply hfold.2

/-- What taking out an entry and reaching each neighbour of its pose keep, one step keeps. -/
theorem Rooted.step (hstart : q.Has q.startPose) (h : s.Rooted q) {e : Entry} {rest : Frontier}
    (hnext : nextLive? q s.labels s.frontier = some (e, rest)) {Inv : Search → Prop}
    (hreach : ∀ label, q.Has e.pose → KeptByReach q e.pose label Inv)
    (ht : Inv (Search.taken q s e rest)) :
  (Search.expand q (Search.taken q s e rest) e.pose).Rooted q
    ∧ Inv (Search.expand q (Search.taken q s e rest) e.pose)
  := by
  have he := h.frontier e (mem_of_nextLive? hnext).1
  obtain ⟨found, hfound⟩ := exists_find?_taken he hnext
  apply (h.taken hstart hnext).expand hstart he hfound (hreach found he) ht

/-- A step of the search keeps it rooted. -/
theorem Rooted.next (hstart : q.Has q.startPose) (h : s.Rooted q) {e : Entry} {rest : Frontier}
    (hnext : nextLive? q s.labels s.frontier = some (e, rest)) :
  (Search.expand q (Search.taken q s e rest) e.pose).Rooted q
  := by
  have hkept : ∀ label, q.Has e.pose → KeptByReach q e.pose label fun _ => True := by
    intro label _ r target step _ _ _ _ _
    trivial
  apply (h.step hstart hnext hkept trivial).1

/-- A search keeps its labels rooted, whatever its steps cost. -/
theorem rooted_of_expands (hstart : q.Has q.startPose) {n : ℕ} (h : Expands q n (initial q) t) :
  t.Rooted q
  := by
  apply h.preserves _ (rooted_initial hstart)
  intro s e rest hnext _ hs
  apply hs.next hstart hnext

/-- The pose at which the search meets the goal is known and has rooted labels behind it. -/
theorem rooted_of_run (hstart : q.Has q.startPose) {budget : ℕ} {labels : Labels}
    (h : run q budget (initial q) = some (p, labels)) :
  labels.Rooted q ∧ q.Has p ∧ p.cell = q.goal ∧ ∃ label, labels.find? q p = some label
  := by
  obtain ⟨n, t, e, rest, hexp, hnext, rfl, hgoal, rfl⟩ := exists_expands_of_run_eq_some h
  have ht := rooted_of_expands hstart hexp
  have he := ht.frontier e (mem_of_nextLive? hnext).1
  exact ⟨ht.labels.close hstart he, he, hgoal, exists_find?_taken he hnext⟩

/-! ### Grounded searches -/

/-- Grounded labels and a frontier of poses on the grid. -/
structure Grounded (q : Quest) (s : Search) : Prop where
  labels : s.labels.Grounded q
  frontier : ∀ e ∈ s.frontier, q.Has e.pose

theorem Grounded.rooted (h : s.Grounded q) :
  s.Rooted q
  := by
  constructor
  case labels => apply h.labels.toRooted
  case frontier => apply h.frontier

/-- The search begins with grounded labels. -/
theorem grounded_initial (hstart : q.Has q.startPose) :
  (initial q).Grounded q
  := by
  have hrooted := rooted_initial hstart
  constructor
  case labels =>
    constructor
    case toRooted => apply hrooted.labels
    case above =>
      intro p label hp hlabel
      obtain ⟨-, rfl⟩ := eq_of_find?_initial hstart hp hlabel
      apply infinite_lt_zero
    case lower =>
      intro p o label reached hp hlabel hparent
      obtain ⟨-, rfl⟩ := eq_of_find?_initial hstart hp hlabel
      contradiction
    case trail =>
      intro p label hp hlabel
      obtain ⟨-, rfl⟩ := eq_of_find?_initial hstart hp hlabel
      exact ⟨_, .origin (Labels.parent?_of_find? hlabel)⟩
  case frontier => apply hrooted.frontier

/-- In a steady quest, reaching a neighbour at a lower cost keeps the search grounded. -/
theorem Grounded.reach (hq : q.IsSteady) (hstart : q.Has q.startPose) (h : s.Grounded q)
    {step : Float32} {label : Label} (ho : q.Has o)
    (hlabel : s.labels.find? q o = some label) (hmove : (target, step) ∈ q.moves o)
    (hless : ¬s.labels.cost q target ≤ label.cost + step) :
  (reach q o (label.cost + step) s target).Grounded q
  := by
  constructor
  case labels => apply h.labels.put hq hstart ho hlabel hmove hless
  case frontier => apply (h.rooted.reach hstart ho hlabel hmove).frontier

/-- Taking an entry keeps the search grounded. -/
theorem Grounded.taken (hstart : q.Has q.startPose) (h : s.Grounded q) {e : Entry}
    {rest : Frontier} (hnext : nextLive? q s.labels s.frontier = some (e, rest)) :
  (taken q s e rest).Grounded q
  := by
  constructor
  case labels => apply h.labels.close hstart (h.frontier e (mem_of_nextLive? hnext).1)
  case frontier => apply (h.rooted.taken hstart hnext).frontier

/-- In a steady quest a step of the search keeps it grounded. -/
theorem Grounded.step (hq : q.IsSteady) (hstart : q.Has q.startPose) (h : s.Grounded q)
    {e : Entry} {rest : Frontier} (hnext : nextLive? q s.labels s.frontier = some (e, rest)) :
  (Search.expand q (Search.taken q s e rest) e.pose).Grounded q
  := by
  have hkept : ∀ label, q.Has e.pose → KeptByReach q e.pose label (Grounded q) := by
    intro label he r target step _ hr hfind hmove hless
    apply hr.reach hq hstart he hfind hmove hless
  apply (h.rooted.step hstart hnext hkept (h.taken hstart hnext)).2

/-- A search whose steps lower no cost keeps its labels grounded. -/
theorem grounded_of_expands (hq : q.IsSteady) (hstart : q.Has q.startPose) {n : ℕ}
    (h : Expands q n (initial q) t) :
  t.Grounded q
  := by
  apply h.preserves _ (grounded_initial hstart)
  intro s e rest hnext _ hs
  apply hs.step hq hstart hnext

/-- In a steady quest the labels are grounded when the goal is met. -/
theorem grounded_of_run (hq : q.IsSteady) (hstart : q.Has q.startPose) {budget : ℕ}
    {labels : Labels} (h : run q budget (initial q) = some (p, labels)) :
  labels.Grounded q
  := by
  obtain ⟨n, t, e, rest, hexp, hnext, rfl, -, rfl⟩ := exists_expands_of_run_eq_some h
  have ht := grounded_of_expands hq hstart hexp
  apply ht.labels.close hstart (ht.frontier e (mem_of_nextLive? hnext).1)

end Search

namespace Quest

variable {q : Quest} {p : Pose} {labels : Labels}

/-- The search has no answer exactly when it meets the goal and the way back does not end. -/
theorem solve?_eq_none_iff :
  q.solve? = none ↔ ∃ p labels, q.meet? = some (p, labels) ∧ ¬∃ cells, labels.Trail q p cells
  := by
  unfold solve? answer?
  constructor
  · intro h
    cases hmeet : q.meet? with
    | none =>
      rw [hmeet] at h
      contradiction
    | some met =>
      obtain ⟨p, labels⟩ := met
      rw [hmeet] at h
      refine ⟨p, labels, rfl, ?_⟩
      rintro ⟨cells, htrail⟩
      simp only [Labels.trail?_eq_some_iff.mpr htrail] at h
      contradiction
  · rintro ⟨p, labels, hmeet, htrail⟩
    rw [hmeet]
    cases hcells : labels.trail? q p [] with
    | none => simp only [hcells, Option.map_none]
    | some cells => apply absurd ⟨cells, Labels.trail?_eq_some_iff.mp hcells⟩ htrail

/-- The way back from the goal of a steady search ends. -/
theorem exists_trail_of_meet? (hstart : q.Has q.startPose) (hq : q.IsSteady)
    (hmeet : q.meet? = some (p, labels)) :
  ∃ cells, labels.Trail q p cells
  := by
  obtain ⟨-, hp, -, label, hlabel⟩ := Search.rooted_of_run hstart hmeet
  apply (Search.grounded_of_run hq hstart hmeet).trail p label hp hlabel

/-- A steady search has an answer. -/
theorem solve?_ne_none (hstart : q.Has q.startPose) (hq : q.IsSteady) :
  q.solve? ≠ none
  := by
  intro hnone
  obtain ⟨p, labels, hmeet, htrail⟩ := solve?_eq_none_iff.mp hnone
  apply htrail (exists_trail_of_meet? hstart hq hmeet)

/-- The search has no answer exactly when it meets the goal at a pose whose way back runs in a
circle. -/
theorem solve?_eq_none_iff_circles :
  q.solve? = none ↔ ∃ p labels, q.meet? = some (p, labels) ∧ labels.Circles q p
  := by
  rw [solve?_eq_none_iff]
  simp only [Labels.circles_iff]

/-- The way back from the goal leads to the start exactly when it does not run in a circle. -/
theorem leads_startPose_iff_of_meet? (hstart : q.Has q.startPose)
    (hmeet : q.meet? = some (p, labels)) :
  Relation.ReflTransGen (labels.Leads q) p q.startPose ↔ ¬labels.Circles q p
  := by
  obtain ⟨hlabels, hp, -, label, hlabel⟩ := Search.rooted_of_run hstart hmeet
  rw [hlabels.leads_startPose_iff hp hlabel, Labels.circles_iff, not_not]

/-- A search is without an answer exactly when the way back from the goal runs in a circle, and it
leads to the start exactly when it does not. That cannot be when no step but the first lowers a cost:
then every way back from the goal leads to the start. -/
theorem way_back_ends (q : Quest) :
  (q.solve? = none ↔ ∃ p labels, q.meet? = some (p, labels) ∧ labels.Circles q p)
  ∧ (q.grid.lattice.inBounds q.start = true → ∀ p labels, q.meet? = some (p, labels) →
    (Relation.ReflTransGen (labels.Leads q) p q.startPose ↔ ¬labels.Circles q p))
  ∧ (q.grid.lattice.inBounds q.start = true → q.IsSteady → q.solve? ≠ none ∧
    ∀ p labels, q.meet? = some (p, labels) →
      Relation.ReflTransGen (labels.Leads q) p q.startPose)
  := by
  use solve?_eq_none_iff_circles
  constructor
  · intro hstart p labels hmeet
    apply leads_startPose_iff_of_meet? hstart hmeet
  · intro hstart hq
    constructor
    · apply solve?_ne_none hstart hq
    · intro p labels hmeet
      rw [leads_startPose_iff_of_meet? hstart hmeet, Labels.circles_iff, not_not]
      apply exists_trail_of_meet? hstart hq hmeet

/-- A quest along the upper row of an open grid. -/
def alongRow : Quest :=
  ⟨⟨⟨1.0, ⟨0.0, 0.0⟩, 3, 2⟩, #[false, false, false, false, false, false]⟩, ⟨0, 0⟩, ⟨2, 0⟩,
    some .down, {}⟩

theorem hasPenalties_alongRow :
  alongRow.tuning.HasPenalties
  := by
  decide

/-- Along the row the goal is met, and the way back ends at the start. -/
theorem way_back_ends_alongRow :
  alongRow.grid.lattice.inBounds alongRow.start = true ∧ alongRow.IsSteady
    ∧ ∃ p labels, alongRow.meet? = some (p, labels) ∧
      Relation.ReflTransGen (labels.Leads alongRow) p alongRow.startPose
  := by
  have hsteady := isSteady_of_hasPenalties hasPenalties_alongRow
  have hmeet : alongRow.meet?.isSome = true := by decide +kernel
  obtain ⟨⟨p, labels⟩, hmet⟩ := Option.isSome_iff_exists.mp hmeet
  refine ⟨by decide, hsteady, p, labels, hmet, ?_⟩
  apply ((way_back_ends alongRow).2.2 (by decide) hsteady).2 p labels hmet

end Quest

namespace Connector

/-- A connector along a row of an open grid, with turns of negative cost. -/
def circling : Connector :=
  ⟨⟨⟨0.0, 0.0⟩, none⟩, ⟨⟨2.0, 0.0⟩, none⟩, [], ⟨1.0, 1.0, 0.0⟩,
    ⟨0.0, 0.14, -5.0, 0.0, 0.45, 250000⟩⟩

/-- Where turns have a negative cost, the way back from the goal can miss the start, and the
connector is never drawn. -/
theorem route?_circling :
  circling.route? = none ∧ ∃ g p labels, circling.grid? = some g ∧
    (circling.questOn g).meet? = some (p, labels) ∧
    ¬Relation.ReflTransGen (labels.Leads (circling.questOn g)) p (circling.questOn g).startPose
  := by
  have hback : (circling.grid?.bind fun g => (circling.questOn g).meet?.bind fun met =>
      (met.2.back (circling.questOn g) 3 met.1).bind fun r =>
        (met.2.back (circling.questOn g) 2 r).map fun s => decide (s = r ∧
          met.2.parent? (circling.questOn g) (circling.questOn g).startPose = none))
      = some true := by
    decide +kernel
  obtain ⟨g, hg, hback⟩ := Option.bind_eq_some_iff.mp hback
  obtain ⟨⟨p, labels⟩, hmeet, hback⟩ := Option.bind_eq_some_iff.mp hback
  obtain ⟨r, hr, hback⟩ := Option.bind_eq_some_iff.mp hback
  obtain ⟨s, hs, hsame⟩ := Option.map_eq_some_iff.mp hback
  obtain ⟨rfl, hstart⟩ := of_decide_eq_true hsame
  have hlead := Labels.leads_of_back hr
  have hcircle := Labels.circular_of_back hs
  constructor
  · have hnone : (circling.questOn g).solve? = none :=
      Quest.solve?_eq_none_iff_circles.mpr ⟨p, labels, hmeet, s, hlead, hcircle⟩
    unfold route? gridStops?
    rw [hg]
    simp only [hnone, Option.map_none]
  · refine ⟨g, p, labels, hg, hmeet, ?_⟩
    intro hback
    obtain ⟨cells, htrail⟩ := (Labels.Trail.origin hstart).of_leads hback
    apply htrail.not_circular hlead hcircle

end Connector

end DiagramLayout
