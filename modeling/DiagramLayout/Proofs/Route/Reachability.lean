import DiagramLayout.Proofs.Route.Termination

/-!
# What a search finds

A search finds a way through free cells to the goal where there is one, unless it would have to
expand more poses than it may. The invariant is that every known pose waits in the frontier with a
live entry, or has all its moves known; a pose on the goal always waits.
-/

namespace DiagramLayout

open Single

/-- A step from a cell to a free neighbour. -/
def Grid.Step (g : Grid) (c d : Cell) : Prop :=
  c.IsNeighbour d ∧ g.lattice.inBounds d = true ∧ g.isBlocked d = false

/-- The goal is reachable from the start through free cells. -/
def Quest.IsSolvable (q : Quest) : Prop :=
  Relation.ReflTransGen q.grid.Step q.start q.goal

namespace Search

variable {q : Quest} {s t : Search} {o p target : Pose} {step cost : Float32}

/-- The pose has a label. -/
def Knows (q : Quest) (s : Search) (p : Pose) : Prop :=
  ∃ label, s.labels.find? q p = some label

/-- The pose has a live entry in the frontier. -/
def Waits (q : Quest) (s : Search) (p : Pose) : Prop :=
  ∃ e ∈ s.frontier, e.pose = p ∧ isLive q s.labels e = true

/-- The pose is not on the goal, and all its moves are known. -/
def Settled (q : Quest) (s : Search) (p : Pose) : Prop :=
  p.cell ≠ q.goal ∧ ∀ m ∈ q.moves p, s.Knows q m.1

/-- Every known pose but `skip` waits or is settled, and no cost grows without bound. -/
structure Covered (q : Quest) (skip : Option Pose) (s : Search) : Prop where
  grounded : s.Grounded q
  bounded : ∀ p label, q.Has p → s.labels.find? q p = some label → CostsAtMost (2 ^ 48) label.cost
  covered : ∀ p, q.Has p → some p ≠ skip → s.Knows q p → s.Waits q p ∨ s.Settled q p

/-! ### Reaching a neighbour -/

/-- A pose that is reached has a label, with an entry of its ticket in the frontier. -/
theorem find?_reach_self (hs : s.Rooted q) (ht : q.Has target) (o : Pose) (cost : Float32) :
  ∃ label, (reach q o cost s target).labels.find? q target = some label ∧ label.cost = cost ∧
    ∃ ticket, label.ticket = some ticket ∧
      q.entry cost ticket target ∈ (reach q o cost s target).frontier
  := by
  refine ⟨_, Labels.find?_put_self hs.labels.size ht, rfl, _, rfl, ?_⟩
  apply Frontier.mem_push.mpr (Or.inl rfl)

/-- A pose that is reached waits. -/
theorem waits_reach_self (hs : s.Rooted q) (ht : q.Has target) :
  (reach q o cost s target).Waits q target
  := by
  obtain ⟨label, hlabel, rfl, ticket, hticket, hmem⟩ := find?_reach_self hs ht o cost
  exact ⟨_, hmem, rfl, isLive_entry hlabel hticket⟩

/-- Reaching a pose forgets none. -/
theorem knows_reach (hs : s.Rooted q) (ht : q.Has target) (hp : q.Has p) (h : s.Knows q p) :
  (reach q o cost s target).Knows q p
  := by
  by_cases hne : target = p
  · subst hne
    obtain ⟨label, hlabel, -⟩ := find?_reach_self hs ht o cost
    exact ⟨label, hlabel⟩
  · rw [Knows, find?_reach_of_ne hs ht hp hne]
    apply h

/-- Reaching a pose leaves the others waiting. -/
theorem waits_reach (hs : s.Rooted q) (ht : q.Has target) (hp : q.Has p) (h : s.Waits q p) :
  (reach q o cost s target).Waits q p
  := by
  by_cases hne : target = p
  · subst hne
    apply waits_reach_self hs ht
  · obtain ⟨e, he, rfl, hlive⟩ := h
    refine ⟨e, Frontier.mem_push.mpr (Or.inr he), rfl, ?_⟩
    rw [isLive_congr (find?_reach_of_ne hs ht hp hne), hlive]

/-- Reaching a pose leaves the others settled. -/
theorem settled_reach (hs : s.Rooted q) (ht : q.Has target) (hp : q.Has p) (h : s.Settled q p) :
  (reach q o cost s target).Settled q p
  := by
  use h.1
  intro m hm
  apply knows_reach hs ht (Quest.has_of_mem_moves hp hm) (h.2 m hm)

/-- A pose whose new cost would not be less is known, for costs do not grow without bound. -/
theorem knows_of_cost_le (hcost : CostsAtMost (2 ^ 48) cost)
    (h : s.labels.cost q target ≤ cost) :
  s.Knows q target
  := by
  cases hfind : s.labels.find? q target with
  | some label => exact ⟨label, hfind⟩
  | none =>
    have hinfinite : value infinite = 2 ^ 128 := by rfl
    rw [Labels.cost, hfind] at h
    have hle := (le_iff.mp h).2.2.trans hcost.2
    rw [hinfinite] at hle
    norm_num at hle

/-- Trying a move keeps the search covered and makes its target known. -/
theorem Covered.relax (ht : q.tuning.HasModestPenalties) (hstart : q.Has q.startPose)
    (h : s.Covered q (some o)) (ho : q.Has o) {label : Label}
    (hlabel : s.labels.find? q o = some label) (hmove : (target, step) ∈ q.moves o) :
  (relax q o label.cost s (target, step)).Covered q (some o)
    ∧ (relax q o label.cost s (target, step)).Knows q target
    ∧ ∀ p, q.Has p → s.Knows q p → (relax q o label.cost s (target, step)).Knows q p
  := by
  have hsteady := Quest.isSteady_of_hasPenalties ht.hasPenalties
  have htarget := Quest.has_of_mem_moves ho hmove
  -- The new cost is bounded, so it is less than the infinite cost of a pose that is not known.
  have htentative : CostsAtMost (2 ^ 48) (label.cost + step) := by
    obtain ⟨i, -, -, rfl⟩ := Quest.mem_moves.mp hmove
    apply (h.bounded o label ho hlabel).add_step (Quest.costsAtMost_stepCost ht)
  rw [relax_eq]
  split_ifs with hle
  · refine ⟨h, knows_of_cost_le htentative hle, ?_⟩
    intro p _ hp
    apply hp
  · have hs := h.grounded.rooted
    obtain ⟨found, hfound, hcost, -⟩ :=
      find?_reach_self hs htarget o (label.cost + step)
    refine ⟨⟨?_, ?_, ?_⟩, ⟨found, hfound⟩, ?_⟩
    · apply h.grounded.reach hsteady hstart ho hlabel hmove hle
    · intro p last hp hlast
      by_cases hne : target = p
      · subst hne
        obtain rfl := Option.some.inj (hfound.symm.trans hlast)
        rw [hcost]
        apply htentative
      · rw [find?_reach_of_ne hs htarget hp hne] at hlast
        apply h.bounded p last hp hlast
    · intro p hp hskip hknows
      -- The target waits now; what is settled or waits stays so.
      by_cases hne : target = p
      · subst hne
        left
        apply waits_reach_self hs htarget
      · rw [Knows, find?_reach_of_ne hs htarget hp hne] at hknows
        rcases h.covered p hp hskip hknows with hwaits | hsettled
        · left
          apply waits_reach hs htarget hp hwaits
        · right
          apply settled_reach hs htarget hp hsettled
    · intro p hp hknows
      apply knows_reach hs htarget hp hknows

/-! ### Expanding poses -/

/-- After all moves of a pose were reached they are all known. -/
theorem Covered.foldl_relax (ht : q.tuning.HasModestPenalties) (hstart : q.Has q.startPose)
    (ho : q.Has o) {label : Label} (ms : List (Pose × Float32)) (hms : ∀ m ∈ ms, m ∈ q.moves o)
    (h : s.Covered q (some o)) (hlabel : s.labels.find? q o = some label) :
  (ms.foldl (Search.relax q o label.cost) s).Covered q (some o)
    ∧ (∀ m ∈ ms, (ms.foldl (Search.relax q o label.cost) s).Knows q m.1)
    ∧ ∀ p, q.Has p → s.Knows q p → (ms.foldl (Search.relax q o label.cost) s).Knows q p
  := by
  induction ms generalizing s with
  | nil =>
    refine ⟨h, ?_, ?_⟩
    · intro m hm
      contradiction
    · intro p _ hp
      apply hp
  | cons m ms ih =>
    obtain ⟨target, step⟩ := m
    have hmove := hms (target, step) List.mem_cons_self
    obtain ⟨hnext, htarget, hkeep⟩ := h.relax ht hstart ho hlabel hmove
    have hlabel' : (Search.relax q o label.cost s (target, step)).labels.find? q o = some label := by
      rw [find?_relax_self h.grounded.rooted ho hmove, hlabel]
    have hms' : ∀ m ∈ ms, m ∈ q.moves o := by
      intro m hm
      apply hms m (List.mem_cons_of_mem _ hm)
    obtain ⟨hfold, hall, hkeep'⟩ := ih hms' hnext hlabel'
    refine ⟨hfold, ?_, ?_⟩
    · intro m hm
      rcases List.mem_cons.mp hm with rfl | hm
      · apply hkeep' _ (Quest.has_of_mem_moves ho hmove) htarget
      · apply hall m hm
    · intro p hp hknows
      apply hkeep' p hp (hkeep p hp hknows)

/-- When an entry is taken, its pose is the one that is not covered. -/
theorem Covered.taken (hstart : q.Has q.startPose) (h : s.Covered q none) {e : Entry}
    {rest : Frontier} (hnext : nextLive? q s.labels s.frontier = some (e, rest)) :
  (taken q s e rest).Covered q (some e.pose)
  := by
  have he := h.grounded.frontier e (mem_of_nextLive? hnext).1
  constructor
  case grounded => apply h.grounded.taken hstart hnext
  case bounded =>
    intro p label hp hlabel
    obtain ⟨found, hfound, hcost, -⟩ := Labels.exists_of_find?_close hp he hlabel
    rw [← hcost]
    apply h.bounded p found hp hfound
  case covered =>
    intro p hp hskip ⟨label, hlabel⟩
    have hne : e.pose ≠ p := by
      rintro rfl
      apply hskip rfl
    obtain ⟨found, hfound, -⟩ := Labels.exists_of_find?_close hp he hlabel
    rcases h.covered p hp (by simp) ⟨found, hfound⟩ with hwaits | ⟨hgoal, hmoves⟩
    · left
      obtain ⟨d, hd, rfl, hlive⟩ := hwaits
      have hrest := (eq_or_mem_of_nextLive? hnext hd hlive).resolve_left (by rintro rfl; exact hne rfl)
      refine ⟨d, hrest, rfl, ?_⟩
      rw [← hlive]
      apply isLive_congr
      rw [Search.taken, Labels.find?_close he hp, hfound, Option.map_some, if_neg hne]
    · right
      use hgoal
      intro m hm
      obtain ⟨last, hlast⟩ := hmoves m hm
      obtain ⟨last', hlast', -⟩ :=
        Labels.exists_find?_close (Quest.has_of_mem_moves hp hm) he hlast
      exact ⟨last', hlast'⟩

/-- Expanding a pose off the goal leaves every known pose waiting or settled. -/
theorem Covered.expand (ht : q.tuning.HasModestPenalties) (hstart : q.Has q.startPose)
    (h : s.Covered q none) {e : Entry} {rest : Frontier}
    (hnext : nextLive? q s.labels s.frontier = some (e, rest)) (hgoal : e.pose.cell ≠ q.goal) :
  (Search.expand q (Search.taken q s e rest) e.pose).Covered q none
  := by
  have he := h.grounded.frontier e (mem_of_nextLive? hnext).1
  obtain ⟨found, hfound⟩ := exists_find?_taken he hnext
  have hcost : (Search.taken q s e rest).labels.cost q e.pose = found.cost :=
    Labels.cost_of_find? hfound
  obtain ⟨hcovered, hmoves, -⟩ := (h.taken hstart hnext).foldl_relax ht hstart he (q.moves e.pose)
    (fun m hm => hm) hfound
  rw [Search.expand, hcost]
  constructor
  case grounded => apply hcovered.grounded
  case bounded => apply hcovered.bounded
  case covered =>
    intro p hp _ hknows
    by_cases hpe : p = e.pose
    · subst hpe
      right
      exact ⟨hgoal, hmoves⟩
    · apply hcovered.covered p hp _ hknows
      simpa using hpe

/-- The search begins with the start waiting. -/
theorem covered_initial (hstart : q.Has q.startPose) :
  (initial q).Covered q none
  := by
  constructor
  case grounded => apply grounded_initial hstart
  case bounded =>
    intro p label hp hlabel
    obtain ⟨-, rfl⟩ := eq_of_find?_initial hstart hp hlabel
    constructor
    · apply Single.le_refl isNumber_zero
    · rw [value_zero]
      positivity
  case covered =>
    intro p hp _ ⟨label, hlabel⟩
    left
    obtain ⟨rfl, rfl⟩ := eq_of_find?_initial hstart hp hlabel
    refine ⟨q.entry 0.0 0 q.startPose, Frontier.mem_push.mpr (Or.inl rfl), rfl, ?_⟩
    apply isLive_entry hlabel rfl

/-- Every step of the search keeps it covered. -/
theorem covered_of_expands (ht : q.tuning.HasModestPenalties) (hstart : q.Has q.startPose) {n : ℕ}
    (h : Expands q n (initial q) t) :
  t.Covered q none
  := by
  apply h.preserves _ (covered_initial hstart)
  intro s e rest hnext hgoal hs
  apply hs.expand ht hstart hnext hgoal

/-- When no entry is left that is live, every reachable cell has a known pose off the goal. -/
theorem Covered.exists_knows (hstart : q.Has q.startPose) (h : s.Covered q none)
    (hnone : nextLive? q s.labels s.frontier = none) {c : Cell}
    (hc : Relation.ReflTransGen q.grid.Step q.start c) :
  ∃ p, p.cell = c ∧ q.Has p ∧ s.Knows q p ∧ s.Settled q p
  := by
  have hsettled : ∀ p, q.Has p → s.Knows q p → s.Settled q p := by
    intro p hp hknows
    apply (h.covered p hp (by simp) hknows).resolve_left
    rintro ⟨e, he, -, hlive⟩
    apply not_isLive_of_nextLive? hnone he hlive
  induction hc with
  | refl =>
    obtain ⟨label, hlabel, -⟩ := h.grounded.labels.start
    exact ⟨q.startPose, rfl, hstart, ⟨label, hlabel⟩, hsettled _ hstart ⟨label, hlabel⟩⟩
  | @tail c d _ hstep ih =>
    obtain ⟨p, rfl, hp, -, hmoves⟩ := ih
    obtain ⟨hnear, hd, hfree⟩ := hstep
    obtain ⟨i, step, hmove⟩ := Quest.exists_mem_moves hp hnear hd hfree
    have hknows := hmoves.2 _ hmove
    have hhas := Quest.has_of_mem_moves hp hmove
    exact ⟨_, rfl, hhas, hknows, hsettled _ hhas hknows⟩

end Search

/-! ### The way that is found -/

namespace Labels

variable {labels : Labels} {q : Quest} {p : Pose} {cells : List Cell} {label : Label}

/-- A way over rooted labels begins at the start and leads through free neighbours. -/
theorem Trail.isChain (h : labels.Trail q p cells) (hlabels : labels.Rooted q) (hp : q.Has p)
    (hfind : labels.find? q p = some label) :
  cells.head? = some q.start ∧ cells.IsChain q.grid.Step
  := by
  induction h generalizing label with
  | @origin p hparent =>
    rw [hlabels.eq_startPose hp hfind hparent]
    exact ⟨rfl, List.isChain_singleton _⟩
  | @step p o cells hparent htrail ih =>
    have hlead : labels.Leads q p o := hparent
    obtain ⟨-, reached, -, -, ho, hreached, step, hmove⟩ := hlabels.exists_of_leads hp hlead
    obtain ⟨hhead, hchain⟩ := ih ho hreached
    constructor
    · rw [List.head?_append, hhead]
      rfl
    · apply List.isChain_append.mpr
      refine ⟨hchain, List.isChain_singleton _, ?_⟩
      intro c hc d hd
      rw [htrail.getLast?] at hc
      obtain rfl := Option.some.inj hc
      obtain rfl := Option.some.inj hd
      exact ⟨Quest.isNeighbour_of_mem_moves ho hmove, Quest.has_of_mem_moves ho hmove,
        Quest.isBlocked_of_mem_moves hmove⟩

end Labels

namespace Quest

variable {q : Quest} {cells : List Cell}

/-- The cells of an answer are a way back from the goal. -/
theorem exists_trail_of_solve? (h : q.solve? = some (some cells)) :
  ∃ p labels, q.meet? = some (p, labels) ∧ labels.Trail q p cells
  := by
  unfold solve? answer? at h
  cases hmeet : q.meet? with
  | none => simp [hmeet] at h
  | some met =>
    obtain ⟨p, labels⟩ := met
    rw [hmeet] at h
    obtain ⟨way, hway, hcells⟩ := Option.map_eq_some_iff.mp h
    obtain rfl := Option.some.inj hcells
    exact ⟨p, labels, rfl, Labels.trail?_eq_some_iff.mp hway⟩

theorem meet?_eq_none_of_solve? (h : q.solve? = some none) :
  q.meet? = none
  := by
  unfold solve? answer? at h
  cases hmeet : q.meet? with
  | none => rfl
  | some met =>
    obtain ⟨p, labels⟩ := met
    rw [hmeet] at h
    obtain ⟨way, -, hcells⟩ := Option.map_eq_some_iff.mp h
    contradiction

/-- A steady search that meets the goal finds a way. -/
theorem exists_way_of_meet? (hstart : q.Has q.startPose) (hq : q.IsSteady)
    (h : q.meet?.isSome = true) :
  ∃ cells, q.solve? = some (some cells)
  := by
  obtain ⟨⟨p, labels⟩, hmeet⟩ := Option.isSome_iff_exists.mp h
  obtain ⟨cells, htrail⟩ := exists_trail_of_meet? hstart hq hmeet
  use cells
  rw [solve?, hmeet, answer?, Labels.trail?_eq_some_iff.mpr htrail]
  rfl

/-- The way that a search finds leads from the start to the goal through free neighbours, whatever its
steps cost. -/
theorem isChain_of_solve? (hstart : q.Has q.startPose) (h : q.solve? = some (some cells)) :
  cells.head? = some q.start ∧ cells.getLast? = some q.goal ∧ cells.IsChain q.grid.Step
  := by
  obtain ⟨p, labels, hmeet, htrail⟩ := exists_trail_of_solve? h
  obtain ⟨hlabels, hp, hgoal, label, hlabel⟩ := Search.rooted_of_run hstart hmeet
  obtain ⟨hhead, hchain⟩ := htrail.isChain hlabels hp hlabel
  refine ⟨hhead, ?_, hchain⟩
  rw [htrail.getLast?, hgoal]

/-- A list that is a chain of free steps from a cell connects this cell with its last one. -/
theorem reflTransGen_of_isChain {g : Grid} {c d : Cell} (h : cells.IsChain g.Step)
    (hhead : cells.head? = some c) (hlast : cells.getLast? = some d) :
  Relation.ReflTransGen g.Step c d
  := by
  induction cells generalizing c with
  | nil => contradiction
  | cons first rest ih =>
    obtain rfl := Option.some.inj hhead
    cases rest with
    | nil =>
      obtain rfl := Option.some.inj hlast
      apply Relation.ReflTransGen.refl
    | cons next others =>
      obtain ⟨hstep, hrest⟩ := List.isChain_cons_cons.mp h
      apply Relation.ReflTransGen.head hstep
      apply ih hrest rfl
      rw [← hlast, List.getLast?_cons_cons]

/-- A goal for which there is an answer is reachable. -/
theorem isSolvable_of_solve? (hstart : q.Has q.startPose) (h : q.solve? = some (some cells)) :
  q.IsSolvable
  := by
  obtain ⟨hhead, hlast, hchain⟩ := isChain_of_solve? hstart h
  apply reflTransGen_of_isChain hchain hhead hlast

/-- All cells along steps from a free cell are free. -/
theorem free_of_isChain {g : Grid} {c : Cell} (h : cells.IsChain g.Step)
    (hhead : cells.head? = some c) (hc : g.lattice.inBounds c = true ∧ g.isBlocked c = false) :
  ∀ d ∈ cells, g.lattice.inBounds d = true ∧ g.isBlocked d = false
  := by
  induction cells generalizing c with
  | nil => simp
  | cons first rest ih =>
    obtain rfl := Option.some.inj hhead
    intro d hd
    rcases List.mem_cons.mp hd with rfl | hd
    · apply hc
    · cases rest with
      | nil => contradiction
      | cons next others =>
        obtain ⟨⟨-, hnext⟩, hrest⟩ := List.isChain_cons_cons.mp h
        apply ih hrest rfl hnext d hd

/-- A search that gives up has used its budget, or the goal is not reachable. -/
theorem expands_or_not_isSolvable (ht : q.tuning.HasModestPenalties) (hstart : q.Has q.startPose)
    (h : q.solve? = some none) :
  (∃ s, Search.Expands q (q.tuning.maxExpansions + 1) (Search.initial q) s) ∨ ¬q.IsSolvable
  := by
  rcases Search.exists_expands_of_run_eq_none (meet?_eq_none_of_solve? h) with hdone | hlimit
  · right
    intro hsolvable
    obtain ⟨n, t, hexp, hnone⟩ := hdone
    have ht := Search.covered_of_expands ht hstart hexp
    obtain ⟨p, hcell, -, -, hgoal, -⟩ := ht.exists_knows hstart hnone hsolvable
    apply hgoal hcell
  · left
    apply hlimit

/-- With penalties between zero and a million the search is sound and complete. It has an answer; a
way that it finds leads from the start to the goal by single steps between free cells of the grid; it
finds none only where it would have to expand more poses than it may or the goal is not reachable;
and it finds none where the goal is not reachable. -/
theorem solve?_sound_and_complete (q : Quest) (ht : q.tuning.HasModestPenalties)
    (hstart : q.grid.lattice.inBounds q.start = true) (hfree : q.grid.isBlocked q.start = false) :
  (∃ way, q.solve? = some way)
  ∧ (∀ cells, q.solve? = some (some cells) →
      cells.head? = some q.start ∧ cells.getLast? = some q.goal ∧ cells.IsChain Cell.IsNeighbour
      ∧ ∀ c ∈ cells, q.grid.lattice.inBounds c = true ∧ q.grid.isBlocked c = false)
  ∧ (q.solve? = some none →
      (∃ s, Search.Expands q (q.tuning.maxExpansions + 1) (Search.initial q) s) ∨ ¬q.IsSolvable)
  ∧ (¬q.IsSolvable → q.solve? = some none)
  := by
  have hsteady := isSteady_of_hasPenalties ht.hasPenalties
  obtain ⟨way, hway⟩ := Option.ne_none_iff_exists'.mp (solve?_ne_none hstart hsteady)
  refine ⟨⟨way, hway⟩, ?_, ?_, ?_⟩
  · intro cells hcells
    obtain ⟨hhead, hlast, hchain⟩ := isChain_of_solve? hstart hcells
    refine ⟨hhead, hlast, ?_, ?_⟩
    · apply hchain.imp
      intro c d hstep
      apply hstep.1
    · apply free_of_isChain hchain hhead ⟨hstart, hfree⟩
  · apply expands_or_not_isSolvable ht hstart
  · intro hunsolvable
    cases way with
    | none => apply hway
    | some cells => apply absurd (isSolvable_of_solve? hstart hway) hunsolvable

theorem hasModestPenalties_alongRow :
  alongRow.tuning.HasModestPenalties
  := by
  constructor
  all_goals
    constructor
    all_goals decide

/-- Along the row there is an answer. -/
theorem solve?_sound_and_complete_alongRow :
  alongRow.tuning.HasModestPenalties ∧ alongRow.grid.lattice.inBounds alongRow.start = true
    ∧ alongRow.grid.isBlocked alongRow.start = false ∧ ∃ way, alongRow.solve? = some way
  := by
  refine ⟨hasModestPenalties_alongRow, by decide, by decide, ?_⟩
  apply (solve?_sound_and_complete alongRow hasModestPenalties_alongRow (by decide) (by decide)).1

end Quest

end DiagramLayout
