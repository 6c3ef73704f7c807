import DiagramLayout.Proofs.Route.Fares
import DiagramLayout.Proofs.Route.Relaxation

/-!
# The search finds a cheapest way

With penalties that are small numbers of quarters, the way that is found has the least fare of all
walks from the start to the goal. The search that scans a list is looked at, which finds the same way.

Costs are exact as long as they are below `2 ^ 22`, and they are: a pose that is reached for the first
time costs at most one step more than some known pose, so all costs are bounded by the number of known
poses. The cost of a pose is at least the cost of the pose before it and the step between them, so the
way back from a pose has no greater fare than the pose has cost. The other way round, every known pose
waits or is settled: off the goal and with neighbours that cost no more than the step to them adds. So
each walk to the goal passes a pose that waits and costs no more than the walk up to it, and the pose
of least estimate that comes out at the goal costs no more than the whole walk.
-/

namespace DiagramLayout

open Single

/-- There is at most one move from one pose to another. -/
theorem Quest.step_unique {q : Quest} {p target : Pose} {step step' : Float32}
    (h : (target, step) ∈ q.moves p) (h' : (target, step') ∈ q.moves p) :
  step = step'
  := by
  obtain ⟨i, -, hi, rfl⟩ := mem_moves.mp h
  obtain ⟨j, -, hj, rfl⟩ := mem_moves.mp h'
  rw [hi, Option.some.injEq] at hj
  rw [hj]

namespace Labels

variable {labels labels' : Labels} {q : Quest} {o p target : Pose} {label reached : Label}
  {step : Float32}

/-! ### The number of known poses -/

/-- The number of poses with a label. -/
def known (labels : Labels) : ℕ :=
  labels.toList.countP Option.isSome

/-- At most all poses are known. -/
theorem known_le (hsize : labels.size = q.poseCount) :
  labels.known ≤ q.poseCount
  := by
  rw [← hsize, ← Array.length_toList]
  apply List.countP_le_length

theorem exists_getElem_index (hsize : labels.size = q.poseCount) (hp : q.Has p) :
  ∃ hlt : q.index p < labels.toList.length, labels.toList[q.index p] = labels.find? q p
  := by
  have hlt : q.index p < labels.size := hsize ▸ Quest.index_lt hp
  refine ⟨by rwa [Array.length_toList], ?_⟩
  rw [find?, Array.getElem?_eq_getElem hlt, Option.join_some, Array.getElem_toList]

theorem known_pos (hsize : labels.size = q.poseCount) (hp : q.Has p)
    (hlabel : labels.find? q p = some label) :
  0 < labels.known
  := by
  obtain ⟨hlt, hget⟩ := exists_getElem_index hsize hp
  apply List.countP_pos_iff.mpr
  refine ⟨_, List.getElem_mem hlt, ?_⟩
  rw [hget, hlabel]
  rfl

/-- A new label makes one more pose known. -/
theorem known_put (hsize : labels.size = q.poseCount) (hp : q.Has p) (label : Label) :
  (labels.put q p label).known = labels.known + if labels.find? q p = none then 1 else 0
  := by
  obtain ⟨hlt, hget⟩ := exists_getElem_index hsize hp
  rw [known, put, Array.toList_setIfInBounds, List.countP_set hlt, hget, ← known]
  cases hfind : labels.find? q p with
  | none => simp
  | some found =>
    have hpos := known_pos hsize hp hfind
    simp only [Option.isSome_some, if_true, reduceCtorEq, if_false]
    omega

/-! ### Exact costs -/

/-- All costs are exact, and no cost is less than the cost of the pose before it and of the step from
there. -/
structure Priced (labels : Labels) (q : Quest) : Prop extends Rooted labels q where
  quarters : ∀ p label, q.Has p → labels.find? q p = some label →
    ∃ n, IsQuarters label.cost n ∧ n + 196 ≤ 196 * labels.known
  lower : ∀ p o label reached step, q.Has p → labels.find? q p = some label →
    label.parent = some o → labels.find? q o = some reached → (p, step) ∈ q.moves o →
    value reached.cost + value step ≤ value label.cost

/-- The grid is small enough for all costs to be exact. -/
theorem mul_known_le (h : labels.Rooted q) (hsize : q.grid.lattice.size ≤ 10000) :
  196 * labels.known ≤ 9800000
  := by
  have hle := known_le h.size
  unfold Quest.poseCount Pose.perCell at hle
  omega

namespace Priced

/-- No exact cost is negative. -/
theorem nonneg (h : labels.Priced q) (hp : q.Has p) (hlabel : labels.find? q p = some label) :
  0.0 ≤ label.cost
  := by
  obtain ⟨n, hn, -⟩ := h.quarters p label hp hlabel
  exact hn.nonneg

/-- A cost that is reached over a known pose is exact. -/
theorem exists_isQuarters_add (ht : q.tuning.HasQuarterPenalties)
    (hsize : q.grid.lattice.size ≤ 10000) (h : labels.Priced q) (ho : q.Has o)
    (hreached : labels.find? q o = some reached) (hmove : (target, step) ∈ q.moves o) :
  ∃ n, IsQuarters (reached.cost + step) n ∧ n ≤ 196 * labels.known
    ∧ value (reached.cost + step) = value reached.cost + value step
  := by
  obtain ⟨m, hm, hbound⟩ := h.quarters o reached ho hreached
  obtain ⟨k, hk, -, hk', -⟩ := Quest.exists_isQuarters_of_mem_moves ht hmove
  have hknown := mul_known_le h.toRooted hsize
  have hsum := hm.add hk (by omega)
  refine ⟨m + k, hsum, by omega, ?_⟩
  rw [hsum.value_eq, hm.value_eq, hk.value_eq]
  push_cast
  ring

/-- A pose that is known already gets no more expensive when its new cost is not its old one or more. -/
theorem value_le (ht : q.tuning.HasQuarterPenalties) (hsize : q.grid.lattice.size ≤ 10000)
    (h : labels.Priced q) (ho : q.Has o) (hreached : labels.find? q o = some reached)
    (hmove : (target, step) ∈ q.moves o) (hless : ¬labels.cost q target ≤ reached.cost + step) :
  ∀ label, labels.find? q target = some label → value (reached.cost + step) ≤ value label.cost
  := by
  intro label hlabel
  obtain ⟨n, hn, -, -⟩ := h.exists_isQuarters_add ht hsize ho hreached hmove
  obtain ⟨m, hm, -⟩ := h.quarters target label (Quest.has_of_mem_moves ho hmove) hlabel
  rw [cost_of_find? hlabel] at hless
  exact (lt_iff.mp (lt_of_not_le hm.isRational.isNumber hn.isRational.isNumber hless)).2.2.le

/-- A new cost is bounded by the costs that were known, and for a known pose by its old cost. -/
theorem quarters_put (ht : q.tuning.HasQuarterPenalties) (hsize : q.grid.lattice.size ≤ 10000)
    (h : labels.Priced q) (ho : q.Has o) (hreached : labels.find? q o = some reached)
    (hmove : (target, step) ∈ q.moves o) (hless : ¬labels.cost q target ≤ reached.cost + step)
    (ticket : Option ℕ) {p : Pose} {label : Label} (hp : q.Has p)
    (hlabel : (labels.put q target ⟨reached.cost + step, some o, ticket⟩).find? q p = some label) :
  ∃ n, IsQuarters label.cost n
    ∧ n + 196 ≤ 196 * (labels.put q target ⟨reached.cost + step, some o, ticket⟩).known
  := by
  have htarget := Quest.has_of_mem_moves ho hmove
  obtain ⟨n, hn, hbound, -⟩ := h.exists_isQuarters_add ht hsize ho hreached hmove
  rw [known_put h.size htarget]
  rcases eq_or_of_find?_put h.size htarget hp hlabel with ⟨rfl, rfl⟩ | ⟨-, hlabel⟩
  · refine ⟨n, hn, ?_⟩
    cases hfind : labels.find? q p with
    | none =>
      rw [if_pos rfl]
      omega
    | some found =>
      obtain ⟨m, hm, hm'⟩ := h.quarters p found hp hfind
      rw [cost_of_find? hfind, hm.le_iff hn] at hless
      rw [if_neg (by simp)]
      omega
  · obtain ⟨m, hm, hm'⟩ := h.quarters p label hp hlabel
    exact ⟨m, hm, by omega⟩

/-- A pose that gets cheaper keeps all costs exact. -/
theorem put (ht : q.tuning.HasQuarterPenalties) (hsize : q.grid.lattice.size ≤ 10000)
    (hstart : q.Has q.startPose) (h : labels.Priced q) (ho : q.Has o)
    (hreached : labels.find? q o = some reached) (hmove : (target, step) ∈ q.moves o)
    (hless : ¬labels.cost q target ≤ reached.cost + step) (ticket : Option ℕ) :
  (labels.put q target ⟨reached.cost + step, some o, ticket⟩).Priced q
  := by
  constructor
  case toRooted => exact h.toRooted.put hstart ho hreached hmove ticket
  case quarters =>
    intro p label hp hlabel
    exact h.quarters_put ht hsize ho hreached hmove hless ticket hp hlabel
  case lower =>
    intro p o' label reached' step' hp hlabel hparent hreached' hmove'
    rcases h.link_put ho hreached hmove hp hlabel rfl (h.value_le ht hsize ho hreached hmove hless)
      hparent hreached' with ⟨rfl, rfl, rfl, rfl⟩ | ⟨hold, found, -, hfound, hle⟩
    · obtain ⟨-, -, -, hvalue⟩ := h.exists_isQuarters_add ht hsize ho hreached hmove
      rw [Quest.step_unique hmove' hmove]
      exact hvalue.ge
    · have hlower := h.lower p o' label found step' hp hold hparent hfound hmove'
      linarith

end Priced

/-- The way back from a pose leads along a walk to this pose whose fare is no greater than the cost of
the pose. -/
theorem Trail.fares_le {cells : List Cell} (ht : q.tuning.HasQuarterPenalties)
    (h : labels.Trail q p cells) (hlabels : labels.Priced q) (hp : q.Has p)
    (hlabel : labels.find? q p = some label) :
  cells ≠ [] ∧ q.startPose.along cells.tail = p ∧ q.fareOf cells ≤ value label.cost
  := by
  induction h generalizing label with
  | @origin p hparent =>
    obtain rfl := hlabels.eq_startPose hp hlabel hparent
    obtain ⟨found, hfound, -, hcost⟩ := hlabels.start
    rw [hlabel] at hfound
    obtain rfl := Option.some.inj hfound
    refine ⟨List.cons_ne_nil _ _, rfl, ?_⟩
    rw [hcost, value_zero]
    exact le_rfl
  | @step p o cells hparent htrail ih =>
    obtain ⟨found, reached, hfound, hparent', ho, hreached, step, hmove⟩ :=
      hlabels.exists_of_leads hp hparent
    rw [hlabel] at hfound
    obtain rfl := Option.some.inj hfound
    obtain ⟨hne, halong, hfare⟩ := ih ho hreached
    obtain ⟨k, hk, -, -, hstep⟩ := Quest.exists_isQuarters_of_mem_moves ht hmove
    have hlower := hlabels.lower p o label reached step hp hlabel hparent' hreached hmove
    rw [hk.value_eq, ← hstep] at hlower
    refine ⟨List.append_ne_nil_of_left_ne_nil hne _, ?_, ?_⟩
    · rw [List.tail_append_of_ne_nil hne, Pose.along_concat, halong, Quest.enter_of_mem_moves hmove]
    · rw [Quest.fareOf, List.tail_append_of_ne_nil hne, Quest.fares_concat, halong]
      rw [Quest.fareOf] at hfare
      linarith

end Labels

/-! ### Poses that wait or are settled -/

namespace Scan

variable {q : Quest} {t : Scan} {o p target : Pose} {label : Label} {step : Float32}
  {skip : Option Pose}

/-- The pose is off the goal, and no neighbour costs more than the way over the pose. -/
def Settled (q : Quest) (t : Scan) (p : Pose) (label : Label) : Prop :=
  p.cell ≠ q.goal ∧ ∀ m ∈ q.moves p, ∃ label', t.labels.find? q m.1 = some label'
    ∧ value label'.cost ≤ value label.cost + value m.2

/-- The costs are exact, and every known pose but `skip` waits or is settled. -/
structure Priced (q : Quest) (skip : Option Pose) (t : Scan) : Prop where
  labels : t.labels.Priced q
  waiting : ∀ p ∈ t.waiting, q.Has p ∧ ∃ label, t.labels.find? q p = some label
  covered : ∀ p label, q.Has p → some p ≠ skip → t.labels.find? q p = some label →
    p ∈ t.waiting ∨ t.Settled q p label

/-- A settled pose stays settled while the costs of other poses get less. -/
theorem Settled.improve {t' : Scan} (h : t.Settled q p label) (hp : q.Has p)
    (himproves : t.labels.Improves t'.labels q) :
  t'.Settled q p label
  := by
  refine ⟨h.1, ?_⟩
  intro m hm
  obtain ⟨label', hlabel', hle⟩ := h.2 m hm
  obtain ⟨label'', hlabel'', hle'⟩ :=
    himproves m.1 label' (Quest.has_of_mem_moves hp hm) hlabel'
  exact ⟨label'', hlabel'', hle'.trans hle⟩

/-- A neighbour that gets cheaper waits, and what was known before waits or is settled as before. -/
theorem Priced.reach (ht : q.tuning.HasQuarterPenalties) (hsize : q.grid.lattice.size ≤ 10000)
    (hstart : q.Has q.startPose) (h : t.Priced q (some o)) (ho : q.Has o)
    (hlabel : t.labels.find? q o = some label) (hmove : (target, step) ∈ q.moves o)
    (hless : ¬t.labels.cost q target ≤ label.cost + step)
    (himproves : t.labels.Improves (reach q o (label.cost + step) t target).labels q) :
  (Scan.reach q o (label.cost + step) t target).Priced q (some o)
  := by
  have htarget := Quest.has_of_mem_moves ho hmove
  constructor
  case labels => exact h.labels.put ht hsize hstart ho hlabel hmove hless none
  case waiting => exact KnowsWaiting.reach h.waiting h.labels.size htarget himproves
  case covered =>
    intro p last hp hskip hlast
    by_cases hne : target = p
    · exact .inl (mem_reach.mpr (.inr hne.symm))
    · rw [find?_reach_of_ne h.labels.size htarget hp hne] at hlast
      rcases h.covered p last hp hskip hlast with hwaits | hsettled
      · exact .inl (mem_reach.mpr (.inl hwaits))
      · exact .inr (hsettled.improve hp himproves)

/-- The costs stay exact when a neighbour gets cheaper. -/
theorem lasts_priced (ht : q.tuning.HasQuarterPenalties) (hsize : q.grid.lattice.size ≤ 10000)
    (hstart : q.Has q.startPose) (ho : q.Has o) (label : Label) :
  Lasts q o label (Priced q (some o))
  := by
  constructor
  case size =>
    intro t h
    exact h.labels.size
  case reach =>
    intro t target step h hlabel hmove hless
    have himproves : t.labels.Improves (reach q o (label.cost + step) t target).labels q :=
      Labels.improves_put h.labels.size (Quest.has_of_mem_moves ho hmove)
        (h.labels.value_le ht hsize ho hlabel hmove hless)
    exact ⟨h.reach ht hsize hstart ho hlabel hmove hless himproves, himproves⟩

/-- Expanding a pose off the goal settles it and keeps all costs exact. -/
theorem Priced.expand (ht : q.tuning.HasQuarterPenalties) (hsize : q.grid.lattice.size ≤ 10000)
    (hstart : q.Has q.startPose) (h : t.Priced q none) (hp : p ∈ t.waiting)
    (hgoal : p.cell ≠ q.goal) :
  (Scan.expand q ⟨t.labels, t.waiting.erase p⟩ p).Priced q none
  := by
  obtain ⟨hhas, label, hlabel⟩ := h.waiting p hp
  have htaken : Priced q (some p) ⟨t.labels, t.waiting.erase p⟩ := by
    refine ⟨h.labels, fun r hr => h.waiting r (List.mem_of_mem_erase hr), ?_⟩
    intro r last hr hskip hlast
    have hne : r ≠ p := fun heq => hskip (congrArg some heq)
    apply (h.covered r last hr (by simp) hlast).imp _ id
    exact (List.mem_erase_of_ne hne).mpr
  obtain ⟨hall, hrelaxes⟩ := (lasts_priced ht hsize hstart hhas label).expand hhas hlabel htaken
  refine ⟨hall.labels, hall.waiting, ?_⟩
  intro r last hr _ hlast'
  by_cases hne : r = p
  · subst hne
    obtain rfl := Option.some.inj (hrelaxes.origin.symm.trans hlast')
    refine .inr ⟨hgoal, ?_⟩
    rintro ⟨target, step⟩ hmove
    obtain ⟨n, hn, -, hvalue⟩ := h.labels.exists_isQuarters_add ht hsize hhas hlabel hmove
    have hfinite := (le_abs_self _).trans_lt hn.isRational.abs_value_lt
    rw [← hvalue]
    exact hrelaxes.reached _ hmove hfinite
  · exact hall.covered r last hr (by simpa using hne) hlast'

/-- The scan begins with exact costs. -/
theorem priced_initial (hstart : q.Has q.startPose) :
  (initial q).Priced q none
  := by
  have hrooted := rooted_initial hstart
  constructor
  case labels =>
    constructor
    case toRooted => exact hrooted
    case quarters =>
      intro p label hp hlabel
      have hpos := Labels.known_pos hrooted.size hp hlabel
      obtain ⟨-, rfl⟩ := eq_of_find?_initial hstart hp hlabel
      exact ⟨0, isQuarters_zero, by omega⟩
    case lower =>
      intro p o label reached step hp hlabel hparent
      obtain ⟨-, rfl⟩ := eq_of_find?_initial hstart hp hlabel
      contradiction
  case waiting => exact knowsWaiting_initial hstart
  case covered =>
    intro p label hp _ hlabel
    obtain ⟨rfl, -⟩ := eq_of_find?_initial hstart hp hlabel
    exact .inl List.mem_cons_self

/-! ### Meeting the goal -/

section Estimates

variable {budget : ℕ}

/-- The estimate of a known pose is exact. -/
theorem Priced.value_estimate (hsize : q.grid.lattice.size ≤ 10000) (h : t.Priced q skip)
    (hgoal : q.grid.lattice.inBounds q.goal = true) (hp : q.Has p)
    (hlabel : t.labels.find? q p = some label) :
  IsNumber (estimate q t.labels p)
    ∧ value (estimate q t.labels p) = value label.cost + q.distance p.cell
  := by
  obtain ⟨n, hn, hbound⟩ := h.labels.quarters p label hp hlabel
  have hknown := Labels.mul_known_le h.labels.toRooted hsize
  have hdistance := Quest.distance_le_size hp hgoal
  have hremaining := isQuarters_ofNat (n := q.distance p.cell) (by omega)
  have hsum := hn.add hremaining (by omega)
  rw [estimate, Labels.cost_of_find? hlabel]
  refine ⟨hsum.isRational.isNumber, ?_⟩
  change value (label.cost + Float32.ofNat (q.distance p.cell)) = _
  rw [hsum.value_eq, hn.value_eq]
  push_cast
  ring

variable {r : Pose} {found : Label} {cells : List Cell}

/-- The pose on the goal costs no more than a way over a pose that waits. -/
theorem Meets.cost_le_of_waits (ht : q.tuning.HasQuarterPenalties)
    (hsize : q.grid.lattice.size ≤ 10000) (hp : t.Meets q p label) (h : t.Priced q none)
    (hr : q.Has r) (hfound : t.labels.find? q r = some found) (hwaits : r ∈ t.waiting)
    (hchain : (r.cell :: cells).IsChain q.grid.Step)
    (hlast : (r.cell :: cells).getLast? = some q.goal) :
  value label.cost ≤ value found.cost + q.fares r cells
  := by
  have hbounds : q.grid.lattice.inBounds q.goal = true := hp.goal ▸ hp.has
  have hestimate := (h.value_estimate hsize hbounds hp.has hp.known).2
  have hestimate' := (h.value_estimate hsize hbounds hr hfound).2
  have hnone : q.distance p.cell = 0 := by
    rw [hp.goal, Quest.distance]
    omega
  have hremaining := Quest.distance_le_fares ht (hchain.imp fun _ _ hstep => hstep.1) hlast
  have hle := hp.least r hwaits
  rw [hestimate, hestimate', hnone, Nat.cast_zero, add_zero] at hle
  linarith

/-- The pose on the goal costs no more than a way over any known pose. -/
theorem Meets.cost_le (ht : q.tuning.HasQuarterPenalties) (hsize : q.grid.lattice.size ≤ 10000)
    (hp : t.Meets q p label) (h : t.Priced q none) (hr : q.Has r)
    (hfound : t.labels.find? q r = some found) (hchain : (r.cell :: cells).IsChain q.grid.Step)
    (hlast : (r.cell :: cells).getLast? = some q.goal) :
  value label.cost ≤ value found.cost + q.fares r cells
  := by
  -- The way is followed as long as its poses are settled, up to one that waits.
  induction cells generalizing r found with
  | nil =>
    rcases h.covered r found hr (by simp) hfound with hwaits | ⟨hgoal, -⟩
    · exact hp.cost_le_of_waits ht hsize h hr hfound hwaits hchain hlast
    · exact absurd (Option.some.inj hlast) hgoal
  | cons c rest ih =>
    rcases h.covered r found hr (by simp) hfound with hwaits | ⟨-, hsettled⟩
    · exact hp.cost_le_of_waits ht hsize h hr hfound hwaits hchain hlast
    · obtain ⟨hstep, hrest⟩ := List.isChain_cons_cons.mp hchain
      rw [List.getLast?_cons_cons] at hlast
      obtain ⟨step, hmove⟩ := Quest.exists_move_enter hr hstep
      obtain ⟨k, hk, -, -, hfare⟩ := Quest.exists_isQuarters_of_mem_moves ht hmove
      obtain ⟨next, hnext, hle⟩ := hsettled _ hmove
      have hway := ih (Quest.has_of_mem_moves hr hmove) hnext hrest hlast
      rw [hk.value_eq, ← hfare] at hle
      change value next.cost ≤ value found.cost + q.fare r c at hle
      rw [Quest.fares]
      linarith

end Estimates

end Scan

/-! ### The way that is found -/

namespace Quest

variable {q : Quest} {cells : List Cell}

/-- The cells lead from the start to the goal by single steps to free cells. -/
structure IsWalk (q : Quest) (cells : List Cell) : Prop where
  head : cells.head? = some q.start
  last : cells.getLast? = some q.goal
  chain : cells.IsChain q.grid.Step

/-- The pose at which a search meets the goal costs no more than any walk to the goal. -/
theorem exists_meets (ht : q.tuning.HasQuarterPenalties) (hsize : q.grid.lattice.size ≤ 10000)
    (hstart : q.Has q.startPose) {budget : ℕ} {p : Pose} {labels : Labels}
    (h : Scan.run q budget (.initial q) = some (p, labels)) :
  labels.Priced q ∧ ∃ label, q.Has p ∧ labels.find? q p = some label
    ∧ ∀ walk, q.IsWalk walk → value label.cost ≤ q.fareOf walk
  := by
  obtain ⟨t, label, hpriced, rfl, hmeets⟩ :=
    Scan.exists_meets_of_run (Scan.Priced q none)
      (fun t p hpriced hp hgoal => hpriced.expand ht hsize hstart hp hgoal)
      (fun t hpriced => hpriced.waiting) (fun t p label hpriced => hpriced.labels.nonneg)
      (Scan.priced_initial hstart) h
  refine ⟨hpriced.labels, label, hmeets.has, hmeets.known, ?_⟩
  intro walk hwalk
  cases walk with
  | nil => exact absurd hwalk.head nofun
  | cons c rest =>
    obtain rfl := Option.some.inj hwalk.head
    obtain ⟨origin, horigin, -, hcost⟩ := hpriced.labels.start
    have hle := hmeets.cost_le ht hsize hpriced hstart horigin hwalk.chain hwalk.last
    rw [hcost, value_zero, zero_add] at hle
    exact hle

/-- With penalties that are numbers of quarters between zero and four, on a grid of at most 10000
cells, the way that a search finds is a walk from the start to the goal, and no walk from the start to
the goal has a lesser fare. -/
theorem solve?_isCheapest (q : Quest) (ht : q.tuning.HasQuarterPenalties)
    (hsize : q.grid.lattice.size ≤ 10000) (hstart : q.grid.lattice.inBounds q.start = true)
    (h : q.solve? = some (some cells)) :
  q.IsWalk cells ∧ ∀ walk, q.IsWalk walk → q.fareOf cells ≤ q.fareOf walk
  := by
  obtain ⟨hhead, hlast, hchain⟩ := isChain_of_solve? hstart h
  refine ⟨⟨hhead, hlast, hchain⟩, ?_⟩
  obtain ⟨p, labels, hmeet, htrail⟩ := exists_trail_of_solve? h
  have hrun := (Search.simulates_initial hstart).run_eq ht.hasPenalties hstart q.tuning.maxExpansions
  rw [meet?] at hmeet
  rw [hmeet] at hrun
  obtain ⟨hlabels, label, hp, hlabel, hleast⟩ := exists_meets ht hsize hstart hrun
  obtain ⟨-, -, hfare⟩ := (Labels.trail_plain_iff.mpr htrail).fares_le ht hlabels hp hlabel
  intro walk hwalk
  exact hfare.trans (hleast walk hwalk)

/-- A quest around a blocked cell, with penalties that are no whole numbers. -/
def aroundCell : Quest :=
  ⟨⟨⟨1.0, ⟨0.0, 0.0⟩, 3, 3⟩,
      #[false, false, false, false, true, false, false, false, false]⟩, ⟨0, 1⟩, ⟨2, 1⟩,
    some .right, ⟨0.0, 0.25, 1.0, 0.5, 0.75, 100⟩⟩

/-- The way around the blocked cell is cheapest. -/
theorem solve?_isCheapest_aroundCell :
  aroundCell.tuning.HasQuarterPenalties ∧ aroundCell.grid.lattice.size ≤ 10000
    ∧ aroundCell.grid.lattice.inBounds aroundCell.start = true
    ∧ ∃ cells, aroundCell.solve? = some (some cells) ∧ aroundCell.IsWalk cells
      ∧ ∀ walk, aroundCell.IsWalk walk → aroundCell.fareOf cells ≤ aroundCell.fareOf walk
  := by
  have ht : aroundCell.tuning.HasQuarterPenalties := by decide +kernel
  have hsize : aroundCell.grid.lattice.size ≤ 10000 := by decide
  have hstart : aroundCell.grid.lattice.inBounds aroundCell.start = true := by decide
  have hsteady := isSteady_of_hasPenalties ht.hasPenalties
  obtain ⟨cells, hcells⟩ := exists_way_of_meet? hstart hsteady (by decide +kernel)
  exact ⟨ht, hsize, hstart, cells, hcells, solve?_isCheapest aroundCell ht hsize hstart hcells⟩

end Quest

end DiagramLayout
