import DiagramLayout.Proofs.Route.Fares
import DiagramLayout.Proofs.Route.Relaxation

/-!
# The search finds a direct way

A way is direct when each of its steps costs one, which no step falls short of. With penalties that are
not negative, a search whose goal can be reached by a direct way finds no way of more steps, on a grid of
any size.

Costs are rounded here, so they are only compared with natural numbers, which rounding respects. The cost
of a pose is no less than the number of steps of the way back from it. The poses of the direct way are
looked at as far as they cost no more than their place on it: the last of them waits. Its estimate is at
most the length of the direct way, so the pose at which the goal is met has no greater cost.
-/

namespace DiagramLayout

open Single

/-! ### Costs from below -/

/-- What is at least a natural number of 24 binary digits is so after rounding, too. -/
theorem Single.IsNearest.natCast_le_value {f : Float32} {x : ℚ} {n : ℕ} (hf : IsNearest f x)
    (hx : n ≤ x) (hn : n ≤ 2 ^ 24) :
  n ≤ value f
  := by
  rw [hf.value_eq, ← confined_natCast hn]
  apply confined_mono hx

/-- A cost of at least a natural number. -/
def CostsAtLeast (n : ℕ) (x : Float32) : Prop :=
  0.0 ≤ x ∧ n ≤ value x

section Costs

variable {m n : ℕ} {x y : Float32}

/-- To cost at least zero is not to be negative. -/
theorem costsAtLeast_zero_iff :
  CostsAtLeast 0 x ↔ 0.0 ≤ x
  := by
  constructor
  · intro h
    exact h.1
  · intro h
    refine ⟨h, ?_⟩
    rw [Nat.cast_zero]
    exact (zero_le_iff.mp h).2

theorem costsAtLeast_one :
  CostsAtLeast 1 1.0
  := by
  refine ⟨nonneg_one, ?_⟩
  rw [isQuarters_one.value_eq]
  norm_num

/-- A sum costs at least the sum of the bounds. -/
theorem CostsAtLeast.add (hx : CostsAtLeast m x) (hy : CostsAtLeast n y) (h : m + n ≤ 2 ^ 24) :
  CostsAtLeast (m + n) (x + y)
  := by
  refine ⟨nonneg_add hx.1 hy.1, ?_⟩
  apply (isNearest_add_of_nonneg hx.1 hy.1).natCast_le_value _ h
  push_cast
  exact add_le_add hx.2 hy.2

/-- A surcharge that may be charged lowers no cost. -/
theorem CostsAtLeast.surcharge {b : Prop} [Decidable b] (hx : CostsAtLeast m x) (hy : 0.0 ≤ y)
    (h : m ≤ 2 ^ 24) :
  CostsAtLeast m (if b then x + y else x)
  := by
  split_ifs
  · exact hx.add (costsAtLeast_zero_iff.mpr hy) h
  · exact hx

end Costs

namespace Quest

variable {q : Quest} {p target : Pose} {step : Float32} {h : Heading} {c : Cell}

/-- Every step costs at least one. -/
theorem costsAtLeast_stepCost (ht : q.tuning.HasPenalties) :
  CostsAtLeast 1 (q.stepCost p h c)
  := by
  apply CostsAtLeast.surcharge _ ht.startDirection.2 (by norm_num)
  apply CostsAtLeast.surcharge _ ht.uturn.2 (by norm_num)
  apply CostsAtLeast.surcharge _ ht.turn.2 (by norm_num)
  exact costsAtLeast_one.add (costsAtLeast_zero_iff.mpr (nonneg_crowding_mul ht)) (by norm_num)

/-- A move costs at least one. -/
theorem costsAtLeast_of_mem_moves (ht : q.tuning.HasPenalties) (hmove : (target, step) ∈ q.moves p) :
  CostsAtLeast 1 step
  := by
  obtain ⟨h, -, -, rfl⟩ := mem_moves.mp hmove
  exact costsAtLeast_stepCost ht

/-- A step that keeps its heading, or leaves along the preferred one, costs one when no blocked cell is
around the cell that it leads to. -/
theorem costsAtMost_stepCost_of_straight (ht : q.tuning.HasPenalties) (hclear : q.grid.crowding c = 0)
    (hpreferred : q.preferred = some h) (hheading : p.heading = none ∨ p.heading = some h) :
  CostsAtMost 1 (q.stepCost p h c)
  := by
  have hnone : CostsAtMost 0 (Float32.ofNat (q.grid.crowding c) * q.tuning.proximityPenalty) := by
    refine ⟨nonneg_crowding_mul ht, ?_⟩
    obtain ⟨hrational, hvalue⟩ := value_ofNat (show q.grid.crowding c ≤ 2 ^ 24 by omega)
    apply (isNearest_mul hrational (isRational_iff.mpr ht.proximity.1)).value_le _ (by norm_num)
    rw [hvalue, hclear, Nat.cast_zero, zero_mul]
  have hplain := costsAtMost_one.add hnone (by norm_num)
  have hopposite : h ≠ h.opposite := by cases h <;> decide
  unfold stepCost
  rcases hheading with hheading | hheading
  · simpa [hheading, hpreferred] using hplain
  · simpa [hheading, hopposite] using hplain

end Quest

namespace Labels

variable {labels labels' : Labels} {q : Quest} {o p target : Pose} {label reached : Label}
  {step : Float32} {n : ℕ}

/-! ### Costs and steps -/

/-- No cost is negative, and a cost that reaches a natural number is followed by one that reaches the
next. -/
structure Counted (labels : Labels) (q : Quest) : Prop extends Rooted labels q where
  nonneg : ∀ p label, q.Has p → labels.find? q p = some label → 0.0 ≤ label.cost
  lower : ∀ p o label reached n, q.Has p → labels.find? q p = some label → label.parent = some o →
    labels.find? q o = some reached → n < 2 ^ 24 → CostsAtLeast n reached.cost →
    CostsAtLeast (n + 1) label.cost

namespace Counted

/-- A pose that is known already gets no more expensive when its new cost is not its old one or more. -/
theorem value_le (ht : q.tuning.HasPenalties) (h : labels.Counted q) (ho : q.Has o)
    (hreached : labels.find? q o = some reached) (hmove : (target, step) ∈ q.moves o)
    (hless : ¬labels.cost q target ≤ reached.cost + step) :
  ∀ label, labels.find? q target = some label → value (reached.cost + step) ≤ value label.cost
  := by
  intro label hlabel
  have hnew := nonneg_add (h.nonneg o reached ho hreached) (Quest.costsAtLeast_of_mem_moves ht hmove).1
  have hold := h.nonneg target label (Quest.has_of_mem_moves ho hmove) hlabel
  rw [cost_of_find? hlabel] at hless
  exact (lt_iff.mp (lt_of_not_le (zero_le_iff.mp hold).1 (zero_le_iff.mp hnew).1 hless)).2.2.le

/-- A pose that gets cheaper keeps all costs counted. -/
theorem put (ht : q.tuning.HasPenalties) (hstart : q.Has q.startPose) (h : labels.Counted q)
    (ho : q.Has o) (hreached : labels.find? q o = some reached) (hmove : (target, step) ∈ q.moves o)
    (hless : ¬labels.cost q target ≤ reached.cost + step) (ticket : Option ℕ) :
  (labels.put q target ⟨reached.cost + step, some o, ticket⟩).Counted q
  := by
  have htarget := Quest.has_of_mem_moves ho hmove
  have hstep := Quest.costsAtLeast_of_mem_moves ht hmove
  have hnew := nonneg_add (h.nonneg o reached ho hreached) hstep.1
  constructor
  case toRooted => exact h.toRooted.put hstart ho hreached hmove ticket
  case nonneg =>
    intro p label hp hlabel
    rcases eq_or_of_find?_put h.size htarget hp hlabel with ⟨rfl, rfl⟩ | ⟨-, hlabel⟩
    · exact hnew
    · exact h.nonneg p label hp hlabel
  case lower =>
    intro p o' label reached' n hp hlabel hparent hreached' hn hcost
    rcases h.link_put ho hreached hmove hp hlabel rfl (h.value_le ht ho hreached hmove hless) hparent
      hreached' with ⟨rfl, rfl, rfl, rfl⟩ | ⟨hold, found, ho', hfound, hle⟩
    · exact hcost.add hstep hn
    · apply h.lower p o' label found n hp hold hparent hfound hn
      exact ⟨h.nonneg o' found ho' hfound, hcost.2.trans hle⟩

end Counted

/-- A pose costs at least the number of steps of the way back from it. -/
theorem Trail.costsAtLeast {cells : List Cell} (h : labels.Trail q p cells)
    (hlabels : labels.Counted q) (hp : q.Has p) (hlabel : labels.find? q p = some label)
    (hlength : n < cells.length) (hn : n ≤ 2 ^ 24) :
  CostsAtLeast n label.cost
  := by
  induction h generalizing label n with
  | @origin p hparent =>
    obtain rfl := Nat.lt_one_iff.mp hlength
    exact costsAtLeast_zero_iff.mpr (hlabels.nonneg p label hp hlabel)
  | @step p o cells hparent htrail ih =>
    obtain ⟨found, reached, hfound, hparent', ho, hreached, -⟩ := hlabels.exists_of_leads hp hparent
    rw [hlabel] at hfound
    obtain rfl := Option.some.inj hfound
    cases n with
    | zero => exact costsAtLeast_zero_iff.mpr (hlabels.nonneg p label hp hlabel)
    | succ m =>
      rw [List.length_append, List.length_singleton] at hlength
      have hcost := ih ho hreached (n := m) (by omega) (by omega)
      exact hlabels.lower p o label reached m hp hlabel hparent' hreached (by omega) hcost

/-- A pose is known at a cost of at most `n`. -/
def Affords (labels : Labels) (q : Quest) (p : Pose) (n : ℕ) : Prop :=
  ∃ label, labels.find? q p = some label ∧ value label.cost ≤ n

/-- A pose is afforded after an improvement when it was before. -/
theorem Affords.improve (h : labels.Affords q p n) (hp : q.Has p)
    (himproves : labels.Improves labels' q) :
  labels'.Affords q p n
  := by
  obtain ⟨label, hlabel, hle⟩ := h
  obtain ⟨label', hlabel', hle'⟩ := himproves p label hp hlabel
  exact ⟨label', hlabel', hle'.trans hle⟩

end Labels

/-! ### A direct way -/

/-- A way of `n` steps from the start to the goal, each of which costs one. -/
structure Quest.IsDirect (q : Quest) (n : ℕ) (pose : ℕ → Pose) : Prop where
  first : pose 0 = q.startPose
  last : (pose n).cell = q.goal
  moves : ∀ k < n, ∃ step, (pose (k + 1), step) ∈ q.moves (pose k) ∧ CostsAtMost 1 step

namespace Quest.IsDirect

variable {q : Quest} {n k : ℕ} {pose : ℕ → Pose}

/-- All poses of a direct way are on the grid. -/
theorem has (h : q.IsDirect n pose) (hstart : q.Has q.startPose) (hk : k ≤ n) :
  q.Has (pose k)
  := by
  induction k with
  | zero =>
    rw [h.first]
    exact hstart
  | succ k ih =>
    obtain ⟨step, hmove, -⟩ := h.moves k hk
    exact has_of_mem_moves (ih (by omega)) hmove

/-- The goal is no farther away than the direct way is long. -/
theorem distance_le (h : q.IsDirect n pose) (hstart : q.Has q.startPose) (hk : k ≤ n) :
  q.distance (pose k).cell ≤ n - k
  := by
  induction hk using Nat.decreasingInduction with
  | self =>
    rw [h.last, distance]
    omega
  | of_succ k hk ih =>
    obtain ⟨step, hmove, -⟩ := h.moves k hk
    have hnear := isNeighbour_of_mem_moves (h.has hstart hk.le) hmove
    have hle := q.distance_le hnear
    omega

end Quest.IsDirect

namespace Scan

variable {q : Quest} {t : Scan} {o p target : Pose} {label : Label} {step : Float32}
  {skip : Option Pose} {n k : ℕ} {pose : ℕ → Pose}

/-- Every pose of the direct way, `skip` apart, that costs at most its place on it waits, or the next one
costs at most its place, too. -/
structure Advances (q : Quest) (n : ℕ) (pose : ℕ → Pose) (skip : Option Pose) (t : Scan) : Prop where
  labels : t.labels.Counted q
  waiting : ∀ p ∈ t.waiting, q.Has p ∧ ∃ label, t.labels.find? q p = some label
  covered : ∀ k ≤ n, some (pose k) ≠ skip → t.labels.Affords q (pose k) k →
    pose k ∈ t.waiting ∨ k < n ∧ t.labels.Affords q (pose (k + 1)) (k + 1)

section Expanding

variable (ht : q.tuning.HasPenalties) (hdirect : q.IsDirect n pose) (hstart : q.Has q.startPose)

include ht hdirect hstart

/-- A neighbour that gets cheaper waits. -/
theorem Advances.reach (h : t.Advances q n pose (some o)) (ho : q.Has o)
    (hlabel : t.labels.find? q o = some label) (hmove : (target, step) ∈ q.moves o)
    (hless : ¬t.labels.cost q target ≤ label.cost + step)
    (himproves : t.labels.Improves (reach q o (label.cost + step) t target).labels q) :
  (Scan.reach q o (label.cost + step) t target).Advances q n pose (some o)
  := by
  have htarget := Quest.has_of_mem_moves ho hmove
  constructor
  case labels => exact h.labels.put ht hstart ho hlabel hmove hless none
  case waiting => exact KnowsWaiting.reach h.waiting h.labels.size htarget himproves
  case covered =>
    intro k hk hskip haffords
    obtain ⟨last, hlast, hle⟩ := haffords
    by_cases hne : target = pose k
    · exact .inl (mem_reach.mpr (.inr hne.symm))
    · rw [find?_reach_of_ne h.labels.size htarget (hdirect.has hstart hk) hne] at hlast
      rcases h.covered k hk hskip ⟨last, hlast, hle⟩ with hwaits | ⟨hlt, hnext⟩
      · exact .inl (mem_reach.mpr (.inl hwaits))
      · exact .inr ⟨hlt, hnext.improve (hdirect.has hstart hlt) himproves⟩

/-- The direct way still advances when a neighbour gets cheaper. -/
theorem lasts_advances (ho : q.Has o) (label : Label) :
  Lasts q o label (Advances q n pose (some o))
  := by
  constructor
  case size =>
    intro t h
    exact h.labels.size
  case reach =>
    intro t target step h hlabel hmove hless
    have himproves : t.labels.Improves (reach q o (label.cost + step) t target).labels q :=
      Labels.improves_put h.labels.size (Quest.has_of_mem_moves ho hmove)
        (h.labels.value_le ht ho hlabel hmove hless)
    exact ⟨h.reach ht hdirect hstart ho hlabel hmove hless himproves, himproves⟩

/-- Expanding a pose of the direct way that is off the goal leads to the next one. -/
theorem Advances.expand (hn : n < 2 ^ 24) (h : t.Advances q n pose none) (hp : p ∈ t.waiting)
    (hgoal : p.cell ≠ q.goal) :
  (Scan.expand q ⟨t.labels, t.waiting.erase p⟩ p).Advances q n pose none
  := by
  obtain ⟨hhas, label, hlabel⟩ := h.waiting p hp
  have htaken : Advances q n pose (some p) ⟨t.labels, t.waiting.erase p⟩ := by
    refine ⟨h.labels, fun r hr => h.waiting r (List.mem_of_mem_erase hr), ?_⟩
    intro k hk hskip haffords
    have hne : pose k ≠ p := fun heq => hskip (congrArg some heq)
    apply (h.covered k hk (by simp) haffords).imp _ id
    exact (List.mem_erase_of_ne hne).mpr
  obtain ⟨hall, hrelaxes⟩ := (lasts_advances ht hdirect hstart hhas label).expand hhas hlabel htaken
  refine ⟨hall.labels, hall.waiting, ?_⟩
  intro k hk _ haffords
  -- The pose that was expanded hands its place on to the next one; the others wait as before.
  by_cases hne : pose k = p
  · subst hne
    obtain ⟨found, hfound, hle⟩ := haffords
    obtain rfl := Option.some.inj (hrelaxes.origin.symm.trans hfound)
    have hlt : k < n := by
      apply lt_of_le_of_ne hk
      rintro rfl
      exact hgoal hdirect.last
    obtain ⟨step, hmove, hstep⟩ := hdirect.moves k hlt
    have hsum : CostsAtMost (k + 1) (label.cost + step) :=
      CostsAtMost.add ⟨h.labels.nonneg _ label hhas hlabel, hle⟩ hstep (by omega)
    have hfinite : value (label.cost + step) < 2 ^ 128 := by
      apply hsum.2.trans_lt
      exact_mod_cast (show k + 1 < 2 ^ 128 by omega)
    obtain ⟨next, hnext, hcost⟩ := hrelaxes.reached _ hmove hfinite
    exact .inr ⟨hlt, next, hnext, hcost.trans hsum.2⟩
  · exact hall.covered k hk (by simpa using hne) haffords

end Expanding

/-- The direct way begins with the start waiting. -/
theorem advances_initial (hdirect : q.IsDirect n pose) (hstart : q.Has q.startPose) :
  (initial q).Advances q n pose none
  := by
  constructor
  case labels =>
    constructor
    case toRooted => exact rooted_initial hstart
    case nonneg =>
      intro p label hp hlabel
      obtain ⟨-, rfl⟩ := eq_of_find?_initial hstart hp hlabel
      exact isQuarters_zero.nonneg
    case lower =>
      intro p o label reached n hp hlabel hparent
      obtain ⟨-, rfl⟩ := eq_of_find?_initial hstart hp hlabel
      contradiction
  case waiting => exact knowsWaiting_initial hstart
  case covered =>
    intro k hk _ haffords
    obtain ⟨label, hlabel, -⟩ := haffords
    obtain ⟨heq, -⟩ := eq_of_find?_initial hstart (hdirect.has hstart hk) hlabel
    rw [heq]
    exact .inl List.mem_cons_self

/-- A pose of the direct way waits that costs no more than its place on it. -/
theorem Advances.exists_waiting (h : t.Advances q n pose none) (hk : k ≤ n)
    (haffords : t.labels.Affords q (pose k) k) :
  ∃ j ≤ n, pose j ∈ t.waiting ∧ t.labels.Affords q (pose j) j
  := by
  induction hk using Nat.decreasingInduction with
  | self =>
    rcases h.covered n le_rfl (by simp) haffords with hwaits | ⟨hlt, -⟩
    · exact ⟨n, le_rfl, hwaits, haffords⟩
    · exact absurd hlt (lt_irrefl n)
  | of_succ k hk ih =>
    rcases h.covered k hk.le (by simp) haffords with hwaits | ⟨-, hnext⟩
    · exact ⟨k, hk.le, hwaits, haffords⟩
    · exact ih hnext

end Scan

/-! ### The way that is found -/

namespace Quest

variable {q : Quest} {n : ℕ} {pose : ℕ → Pose} {cells : List Cell}

/-- The pose at which the goal is met has a cost of at most the length of the direct way. -/
theorem exists_meets_of_isDirect (ht : q.tuning.HasPenalties) (hdirect : q.IsDirect n pose)
    (hstart : q.Has q.startPose) (hn : n < 2 ^ 24) {budget : ℕ} {p : Pose} {labels : Labels}
    (h : Scan.run q budget (.initial q) = some (p, labels)) :
  labels.Counted q ∧ ∃ label, q.Has p ∧ labels.find? q p = some label
    ∧ ¬CostsAtLeast (n + 1) label.cost
  := by
  obtain ⟨t, label, hadvances, rfl, hmeets⟩ :=
    Scan.exists_meets_of_run (Scan.Advances q n pose none)
      (fun t p h hp hgoal => h.expand ht hdirect hstart hn hp hgoal) (fun t h => h.waiting)
      (fun t p label h => h.labels.nonneg p label) (Scan.advances_initial hdirect hstart) h
  refine ⟨hadvances.labels, label, hmeets.has, hmeets.known, ?_⟩
  have horigin : t.labels.Affords q (pose 0) 0 := by
    obtain ⟨origin, horigin, -, hcost⟩ := hadvances.labels.start
    rw [hdirect.first]
    refine ⟨origin, horigin, ?_⟩
    rw [hcost, value_zero, Nat.cast_zero]
  obtain ⟨k, hk, hwaits, found, hfound, hle⟩ := hadvances.exists_waiting n.zero_le horigin
  have hpose := hdirect.has hstart hk
  -- The estimate of the pose that waits on the direct way is at most its length.
  have hestimate : CostsAtMost n (Scan.estimate q t.labels (pose k)) := by
    have hdistance := hdirect.distance_le hstart hk
    have hcost : CostsAtMost k found.cost := ⟨hadvances.labels.nonneg _ found hpose hfound, hle⟩
    have hremaining : CostsAtMost (n - k) (q.remaining (pose k).cell) := by
      refine ⟨nonneg_ofNat _, ?_⟩
      rw [remaining, (value_ofNat (by omega)).2]
      exact_mod_cast hdistance
    rw [Scan.estimate, Labels.cost_of_find? hfound]
    exact (hcost.add hremaining (by omega)).mono (by omega)
  intro hcost
  have hmet : CostsAtLeast (n + 1) (Scan.estimate q t.labels p) := by
    rw [Scan.estimate, Labels.cost_of_find? hmeets.known]
    exact hcost.add (costsAtLeast_zero_iff.mpr (nonneg_ofNat _)) hn
  have hlast := hmeets.least (pose k) hwaits
  have hlow := hmet.2
  have hhigh := hestimate.2
  push_cast at hlow
  linarith

/-- Where there is a direct way, the way that is found has no more steps. -/
theorem length_le_of_isDirect (ht : q.tuning.HasPenalties) (hdirect : q.IsDirect n pose)
    (hstart : q.Has q.startPose) (hn : n < 2 ^ 24) (h : q.solve? = some (some cells)) :
  cells.length ≤ n + 1
  := by
  obtain ⟨p, labels, hmeet, htrail⟩ := exists_trail_of_solve? h
  have hrun := (Search.simulates_initial hstart).run_eq ht hstart q.tuning.maxExpansions
  rw [meet?] at hmeet
  rw [hmeet] at hrun
  obtain ⟨hlabels, label, hp, hlabel, hcost⟩ := exists_meets_of_isDirect ht hdirect hstart hn hrun
  by_contra! hlong
  exact hcost ((Labels.trail_plain_iff.mpr htrail).costsAtLeast hlabels hp hlabel hlong hn)

/-! ### Ways along a row -/

/-- A way from the row of the goal that has no more steps than the goal is away keeps to the row. -/
theorem row_eq_of_length_le {c : Cell} {rest : List Cell}
    (hchain : (c :: rest).IsChain Cell.IsNeighbour) (hlast : (c :: rest).getLast? = some q.goal)
    (hrow : c.row = q.goal.row) (hlength : rest.length ≤ q.distance c) :
  ∀ e ∈ c :: rest, e.row = q.goal.row
  := by
  induction rest generalizing c with
  | nil =>
    intro e he
    obtain rfl := List.mem_singleton.mp he
    exact hrow
  | cons next rest ih =>
    obtain ⟨hnear, hrest⟩ := List.isChain_cons_cons.mp hchain
    rw [List.getLast?_cons_cons] at hlast
    rw [List.length_cons] at hlength
    have hle := distance_le_length hrest hlast
    have hstep := q.distance_le hnear
    -- A step off the row leads away from the goal.
    have hkept : next.row = q.goal.row := by
      rcases hnear with ⟨hcol, hoff⟩ | ⟨hsame, -⟩
      · unfold distance at hle hlength
        omega
      · omega
    intro e he
    rcases List.mem_cons.mp he with rfl | he
    · exact hrow
    · exact ih hrest hlast hkept (by omega) e he

end Quest

end DiagramLayout
