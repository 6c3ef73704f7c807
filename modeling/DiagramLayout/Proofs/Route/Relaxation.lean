import DiagramLayout.Proofs.Route.Simulation

/-!
# What relaxing the neighbours of a pose keeps

A pose gets a new label only when this makes it cheaper. So the search that scans a list forgets no pose
and never raises a cost, and after a pose was expanded none of its neighbours costs more than the way over
the pose. What the search knows at the end is read off the state in which it meets the goal: there the
pose at the goal has the least estimate of all that wait.

The invariant that is carried along is left open here. All that is asked of it is that it lasts when one
neighbour gets cheaper.
-/

namespace DiagramLayout

open Single

namespace Labels

variable {labels labels' : Labels} {q : Quest} {o o' p target : Pose}
  {label new reached reached' : Label} {step : Float32}

/-- No known pose is forgotten, and none costs more than before. -/
def Improves (labels labels' : Labels) (q : Quest) : Prop :=
  ∀ p label, q.Has p → labels.find? q p = some label →
    ∃ label', labels'.find? q p = some label' ∧ value label'.cost ≤ value label.cost

theorem Improves.refl (labels : Labels) (q : Quest) :
  labels.Improves labels q
  := by
  intro p label _ hlabel
  exact ⟨label, hlabel, le_rfl⟩

/-- Improvements of improvements are improvements. -/
theorem Improves.trans {labels'' : Labels} (h : labels.Improves labels' q)
    (h' : labels'.Improves labels'' q) :
  labels.Improves labels'' q
  := by
  intro p label hp hlabel
  obtain ⟨label', hlabel', hle⟩ := h p label hp hlabel
  obtain ⟨label'', hlabel'', hle'⟩ := h' p label' hp hlabel'
  exact ⟨label'', hlabel'', hle'.trans hle⟩

/-- A new label that is no more expensive than the one that it replaces, if any. -/
theorem improves_put (hsize : labels.size = q.poseCount) (htarget : q.Has target)
    (hle : ∀ label, labels.find? q target = some label → value new.cost ≤ value label.cost) :
  labels.Improves (labels.put q target new) q
  := by
  intro p label hp hlabel
  rw [find?_put hsize htarget hp]
  split_ifs with heq
  · subst heq
    exact ⟨new, rfl, hle label hlabel⟩
  · exact ⟨label, hlabel, le_rfl⟩

/-- After a pose got cheaper, a link to the pose before is the new one, or an old one whose origin costs
no more than before. -/
theorem Rooted.link_put (h : labels.Rooted q) (ho : q.Has o) (hreached : labels.find? q o = some reached)
    (hmove : (target, step) ∈ q.moves o) (hp : q.Has p)
    (hlabel : (labels.put q target new).find? q p = some label) (hparent : new.parent = some o)
    (hle : ∀ label, labels.find? q target = some label → value new.cost ≤ value label.cost)
    (hlink : label.parent = some o')
    (hreached' : (labels.put q target new).find? q o' = some reached') :
  (p = target ∧ o' = o ∧ label = new ∧ reached' = reached)
    ∨ labels.find? q p = some label ∧ ∃ found, q.Has o' ∧ labels.find? q o' = some found
      ∧ value reached'.cost ≤ value found.cost
  := by
  have htarget := Quest.has_of_mem_moves ho hmove
  rcases eq_or_of_find?_put h.size htarget hp hlabel with ⟨rfl, rfl⟩ | ⟨-, hlabel⟩
  · left
    obtain rfl := Option.some.inj (hparent.symm.trans hlink)
    rw [find?_put_of_ne h.size htarget ho (Quest.ne_of_mem_moves ho hmove), hreached] at hreached'
    exact ⟨rfl, rfl, rfl, (Option.some.inj hreached').symm⟩
  · right
    have hlead : labels.Leads q p o' := by rw [Leads, parent?_of_find? hlabel, hlink]
    obtain ⟨-, found, -, -, ho', hfound, -⟩ := h.exists_of_leads hp hlead
    obtain ⟨last, hlast, hcost⟩ := improves_put h.size htarget hle o' found ho' hfound
    rw [hreached'] at hlast
    obtain rfl := Option.some.inj hlast
    exact ⟨hlabel, found, ho', hfound, hcost⟩

end Labels

namespace Scan

variable {q : Quest} {t : Scan} {o p target : Pose} {label : Label} {step tentative : Float32}

/-! ### One neighbour -/

/-- The search after a neighbour got a new label. -/
def reach (q : Quest) (origin : Pose) (tentative : Float32) (t : Scan) (target : Pose) : Scan where
  labels := t.labels.put q target ⟨tentative, some origin, none⟩
  waiting := if target ∈ t.waiting then t.waiting else t.waiting ++ [target]

/-- A move is of use when it makes its target cheaper. -/
theorem relax_eq (origin : Pose) (cost : Float32) (t : Scan) (target : Pose) (step : Float32) :
  relax q origin cost t (target, step)
    = if t.labels.cost q target ≤ cost + step then t else reach q origin (cost + step) t target
  := rfl

theorem mem_reach :
  p ∈ (reach q o tentative t target).waiting ↔ p ∈ t.waiting ∨ p = target
  := by
  unfold reach
  split_ifs with hmem
  · constructor
    · exact .inl
    · rintro (hp | rfl)
      · exact hp
      · exact hmem
  · rw [List.mem_append, List.mem_singleton]

/-- A pose that is reached gets its new label. -/
theorem find?_reach_self (hsize : t.labels.size = q.poseCount) (htarget : q.Has target) :
  (reach q o tentative t target).labels.find? q target = some ⟨tentative, some o, none⟩
  := Labels.find?_put_self hsize htarget

/-- Reaching a pose leaves the labels of the others. -/
theorem find?_reach_of_ne (hsize : t.labels.size = q.poseCount) (htarget : q.Has target)
    (hp : q.Has p) (hne : target ≠ p) :
  (reach q o tentative t target).labels.find? q p = t.labels.find? q p
  := Labels.find?_put_of_ne hsize htarget hp hne

/-- The poses that wait are known. -/
def KnowsWaiting (q : Quest) (t : Scan) : Prop :=
  ∀ p ∈ t.waiting, q.Has p ∧ ∃ label, t.labels.find? q p = some label

/-- Reaching a pose lets only known poses wait. -/
theorem KnowsWaiting.reach (h : t.KnowsWaiting q) (hsize : t.labels.size = q.poseCount)
    (htarget : q.Has target)
    (himproves : t.labels.Improves (reach q o tentative t target).labels q) :
  (reach q o tentative t target).KnowsWaiting q
  := by
  intro p hp
  rcases mem_reach.mp hp with hp | rfl
  · obtain ⟨hhas, found, hfound⟩ := h p hp
    obtain ⟨found', hfound', -⟩ := himproves p found hhas hfound
    exact ⟨hhas, found', hfound'⟩
  · exact ⟨htarget, _, find?_reach_self hsize htarget⟩

/-! ### All neighbours -/

/-- What reaching neighbours of a pose does to the labels: the pose keeps its own, no known pose is
forgotten or gets more expensive, and none of the neighbours costs more than the way over the pose, which
is less than infinite. -/
structure Relaxes (q : Quest) (o : Pose) (label : Label) (moves : List (Pose × Float32))
    (labels labels' : Labels) : Prop where
  origin : labels'.find? q o = some label
  improves : labels.Improves labels' q
  reached : ∀ m ∈ moves, value (label.cost + m.2) < 2 ^ 128 →
    ∃ label', labels'.find? q m.1 = some label' ∧ value label'.cost ≤ value (label.cost + m.2)

/-- What holds of the searches `t` with `Inv t` lasts when a neighbour of a pose gets cheaper. -/
structure Lasts (q : Quest) (o : Pose) (label : Label) (Inv : Scan → Prop) : Prop where
  size : ∀ t, Inv t → t.labels.size = q.poseCount
  reach : ∀ t target step, Inv t → t.labels.find? q o = some label → (target, step) ∈ q.moves o →
    ¬t.labels.cost q target ≤ label.cost + step →
    Inv (reach q o (label.cost + step) t target)
      ∧ t.labels.Improves (Scan.reach q o (label.cost + step) t target).labels q

namespace Lasts

variable {Inv : Scan → Prop}

/-- What lasts when poses get cheaper lasts when a move is tried. -/
theorem relax (hlasts : Lasts q o label Inv) (ho : q.Has o) (h : Inv t)
    (hlabel : t.labels.find? q o = some label) (hmove : (target, step) ∈ q.moves o) :
  Inv (relax q o label.cost t (target, step))
    ∧ Relaxes q o label [(target, step)] t.labels (Scan.relax q o label.cost t (target, step)).labels
  := by
  have htarget := Quest.has_of_mem_moves ho hmove
  have hsize := hlasts.size t h
  rw [relax_eq]
  split_ifs with hle
  · refine ⟨h, hlabel, Labels.Improves.refl _ q, ?_⟩
    intro m hm hfinite
    obtain rfl := List.mem_singleton.mp hm
    cases hfind : t.labels.find? q target with
    | none =>
      -- A pose that is not known has an infinite cost.
      have hinfinite : value infinite = 2 ^ 128 := by rfl
      rw [Labels.cost, hfind] at hle
      have hle' := (le_iff.mp hle).2.2
      rw [hinfinite] at hle'
      exact absurd hfinite hle'.not_gt
    | some label' =>
      rw [Labels.cost_of_find? hfind] at hle
      exact ⟨label', rfl, (le_iff.mp hle).2.2⟩
  · obtain ⟨hnext, himproves⟩ := hlasts.reach t target step h hlabel hmove hle
    refine ⟨hnext, ?_, himproves, ?_⟩
    · rw [find?_reach_of_ne hsize htarget ho (Quest.ne_of_mem_moves ho hmove)]
      exact hlabel
    · intro m hm _
      obtain rfl := List.mem_singleton.mp hm
      exact ⟨_, find?_reach_self hsize htarget, le_rfl⟩

/-- What lasts when poses get cheaper lasts when some moves are tried. -/
theorem foldl_relax (hlasts : Lasts q o label Inv) (ho : q.Has o) (ms : List (Pose × Float32))
    (hms : ∀ m ∈ ms, m ∈ q.moves o) (h : Inv t) (hlabel : t.labels.find? q o = some label) :
  Inv (ms.foldl (Scan.relax q o label.cost) t)
    ∧ Relaxes q o label ms t.labels (ms.foldl (Scan.relax q o label.cost) t).labels
  := by
  induction ms generalizing t with
  | nil =>
    refine ⟨h, hlabel, Labels.Improves.refl _ q, ?_⟩
    intro m hm
    exact absurd hm List.not_mem_nil
  | cons m ms ih =>
    obtain ⟨hmove, hms'⟩ := List.forall_mem_cons.mp hms
    obtain ⟨hnext, hfirst⟩ := hlasts.relax ho h hlabel hmove
    obtain ⟨hall, hrest⟩ := ih hms' hnext hfirst.origin
    refine ⟨hall, hrest.origin, hfirst.improves.trans hrest.improves, ?_⟩
    intro m' hm hfinite
    rcases List.mem_cons.mp hm with rfl | hm
    · obtain ⟨found, hfound, hle⟩ := hfirst.reached m' List.mem_cons_self hfinite
      obtain ⟨found', hfound', hle'⟩ :=
        hrest.improves m'.1 found (Quest.has_of_mem_moves ho hmove) hfound
      exact ⟨found', hfound', hle'.trans hle⟩
    · exact hrest.reached m' hm hfinite

/-- Expanding a pose that was taken out. -/
theorem expand (hlasts : Lasts q p label Inv) (hp : q.Has p)
    (hlabel : t.labels.find? q p = some label) (h : Inv ⟨t.labels, t.waiting.erase p⟩) :
  Inv (expand q ⟨t.labels, t.waiting.erase p⟩ p)
    ∧ Relaxes q p label (q.moves p) t.labels (Scan.expand q ⟨t.labels, t.waiting.erase p⟩ p).labels
  := by
  have hcost : (Scan.mk t.labels (t.waiting.erase p)).labels.cost q p = label.cost :=
    Labels.cost_of_find? hlabel
  rw [Scan.expand, hcost]
  exact hlasts.foldl_relax hp (q.moves p) (fun _ => id) h hlabel

end Lasts

/-! ### From the start to the goal -/

/-- At the beginning only the start has a label. -/
theorem eq_of_find?_initial (hstart : q.Has q.startPose) (hp : q.Has p)
    (h : (initial q).labels.find? q p = some label) :
  p = q.startPose ∧ label = ⟨0.0, none, none⟩
  := by
  rw [(Search.simulates_initial hstart).labels, Labels.find?_plain] at h
  obtain ⟨found, hfound, rfl⟩ := Option.map_eq_some_iff.mp h
  obtain ⟨heq, rfl⟩ := Search.eq_of_find?_initial hstart hp hfound
  exact ⟨heq.symm, rfl⟩

theorem find?_initial_startPose (hstart : q.Has q.startPose) :
  (initial q).labels.find? q q.startPose = some ⟨0.0, none, none⟩
  := by
  rw [(Search.simulates_initial hstart).labels, Labels.find?_plain,
    Search.find?_initial_startPose hstart]
  rfl

/-- The scan begins with rooted labels. -/
theorem rooted_initial (hstart : q.Has q.startPose) :
  (initial q).labels.Rooted q
  := by
  refine ⟨?_, ⟨_, find?_initial_startPose hstart, rfl, rfl⟩, ?_⟩
  · rw [initial, Labels.size_put, Array.size_replicate]
  · intro p label hp hlabel hne
    exact absurd (eq_of_find?_initial hstart hp hlabel).1 hne

theorem knowsWaiting_initial (hstart : q.Has q.startPose) :
  (initial q).KnowsWaiting q
  := by
  intro p hp
  obtain rfl := List.mem_singleton.mp hp
  exact ⟨hstart, _, find?_initial_startPose hstart⟩

/-- A search that meets the goal does so at a pose of least estimate, among those that wait at a point
that it has come to; what one expansion keeps holds there. -/
theorem exists_of_run_eq_some (Inv : Scan → Prop) {budget : ℕ} {labels : Labels}
    (hstep : ∀ t p, Inv t → p ∈ t.waiting → p.cell ≠ q.goal →
      Inv (Scan.expand q ⟨t.labels, t.waiting.erase p⟩ p))
    (ht : Inv t) (h : run q budget t = some (p, labels)) :
  ∃ t first others, Inv t ∧ t.waiting = first :: others ∧ p = leastFrom q t.labels first others
    ∧ p.cell = q.goal ∧ labels = t.labels
  := by
  fun_induction run q budget t with
  | case1 budget labels' => contradiction
  | case2 budget labels' first others least hgoal =>
    obtain ⟨rfl, rfl⟩ := Prod.mk.inj (Option.some.inj h)
    exact ⟨_, first, others, ht, rfl, rfl, hgoal, rfl⟩
  | case3 labels' first others least hgoal => contradiction
  | case4 labels' first others least hgoal budget ih =>
    have hnext := hstep ⟨labels', first :: others⟩ least ht (leastFrom_mem first others) hgoal
    exact ih hnext h

/-- A known pose of least estimate on the goal. -/
structure Meets (q : Quest) (t : Scan) (p : Pose) (label : Label) : Prop where
  has : q.Has p
  known : t.labels.find? q p = some label
  goal : p.cell = q.goal
  least : ∀ r ∈ t.waiting, value (estimate q t.labels p) ≤ value (estimate q t.labels r)

/-- A search without negative costs that meets the goal does so at a pose that is known and has the least
estimate. -/
theorem exists_meets_of_run (Inv : Scan → Prop) {budget : ℕ} {labels : Labels}
    (hstep : ∀ t p, Inv t → p ∈ t.waiting → p.cell ≠ q.goal →
      Inv (Scan.expand q ⟨t.labels, t.waiting.erase p⟩ p))
    (hwaiting : ∀ t, Inv t → t.KnowsWaiting q)
    (hnonneg : ∀ t p label, Inv t → q.Has p → t.labels.find? q p = some label → 0.0 ≤ label.cost)
    (ht : Inv t) (h : run q budget t = some (p, labels)) :
  ∃ t label, Inv t ∧ labels = t.labels ∧ t.Meets q p label
  := by
  obtain ⟨t, first, others, hInv, hfirst, hp, hgoal, rfl⟩ := exists_of_run_eq_some Inv hstep ht h
  have hmem : p ∈ t.waiting := by
    rw [hp, hfirst]
    exact leastFrom_mem first others
  obtain ⟨hhas, label, hlabel⟩ := hwaiting t hInv p hmem
  have hnumber : ∀ r ∈ first :: others, IsNumber (estimate q t.labels r) := by
    intro r hr
    obtain ⟨hr', found, hfound⟩ := hwaiting t hInv r (hfirst ▸ hr)
    have hsum := nonneg_add (hnonneg t r found hInv hr' hfound) (Search.nonneg_remaining (q := q) r.cell)
    rw [estimate, Labels.cost_of_find? hfound]
    exact (zero_le_iff.mp hsum).1
  -- Which of the poses of least estimate comes first does not matter here.
  have hsorted : (first :: others).Pairwise fun p r => (fun _ => 0 : Pose → ℕ) p ≤ (fun _ => 0) r :=
    List.pairwise_of_forall fun _ _ => le_rfl
  refine ⟨t, label, hInv, rfl, hhas, hlabel, hgoal, ?_⟩
  intro r hr
  rw [hp]
  apply Prod.Lex.monotone_fst _ _ (key_leastFrom_le first others hnumber hsorted r (hfirst ▸ hr))

end Scan

end DiagramLayout
