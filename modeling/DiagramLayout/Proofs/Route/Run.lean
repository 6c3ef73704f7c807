import DiagramLayout.Proofs.Route.Frontier
import DiagramLayout.Proofs.Route.Labels

/-!
# Runs of a search

`Expands q n s t` says that the search `s` becomes `t` when it expands `n` poses. What one expansion
keeps, all of them keep, and an expansion keeps what the reaching of one neighbour keeps. A search
that ends has met the goal, has run out of live entries, or has one pose more to expand than it may.
-/

namespace DiagramLayout.Search

variable {q : Quest} {labels : Labels} {f rest : Frontier} {e : Entry} {s t : Search}

/-! ### Taking out an entry -/

/-- The next live entry is live. -/
theorem isLive_of_nextLive? (h : nextLive? q labels f = some (e, rest)) :
  isLive q labels e = true
  := by
  fun_induction nextLive? q labels f with
  | case1 f hpop => simp at h
  | case2 f d others hpop hlive =>
    simp only [Option.some.injEq, Prod.mk.injEq] at h
    rw [← h.1]
    apply hlive
  | case3 f d others hpop hlive ih => apply ih h

/-- The next live entry and all that is left were in the frontier. -/
theorem mem_of_nextLive? (h : nextLive? q labels f = some (e, rest)) :
  e ∈ f ∧ ∀ d ∈ rest, d ∈ f
  := by
  fun_induction nextLive? q labels f with
  | case1 f hpop => simp at h
  | case2 f d others hpop hlive =>
    simp only [Option.some.injEq, Prod.mk.injEq] at h
    obtain ⟨rfl, rfl⟩ := h
    constructor
    · apply (Frontier.mem_of_pop? hpop).mpr (Or.inl rfl)
    · intro d hd
      apply (Frontier.mem_of_pop? hpop).mpr (Or.inr hd)
  | case3 f d others hpop hlive ih =>
    obtain ⟨hmem, hrest⟩ := ih h
    constructor
    · apply (Frontier.mem_of_pop? hpop).mpr (Or.inr hmem)
    · intro c hc
      apply (Frontier.mem_of_pop? hpop).mpr (Or.inr (hrest c hc))

/-- No live entry is lost but the one that comes out. -/
theorem eq_or_mem_of_nextLive? (h : nextLive? q labels f = some (e, rest)) {d : Entry} (hd : d ∈ f)
    (hlive : isLive q labels d = true) :
  d = e ∨ d ∈ rest
  := by
  fun_induction nextLive? q labels f with
  | case1 f hpop => simp at h
  | case2 f c others hpop hc =>
    simp only [Option.some.injEq, Prod.mk.injEq] at h
    obtain ⟨rfl, rfl⟩ := h
    apply (Frontier.mem_of_pop? hpop).mp hd
  | case3 f c others hpop hc ih =>
    rcases (Frontier.mem_of_pop? hpop).mp hd with rfl | hd
    · contradiction
    · apply ih h hd

/-- Where there is no next live entry, none is live. -/
theorem not_isLive_of_nextLive? (h : nextLive? q labels f = none) {d : Entry} (hd : d ∈ f) :
  ¬isLive q labels d = true
  := by
  fun_induction nextLive? q labels f with
  | case1 f hpop =>
    rw [Frontier.eq_empty_of_pop? hpop] at hd
    apply absurd hd Frontier.not_mem_empty
  | case2 f c others hpop hc => simp at h
  | case3 f c others hpop hc ih =>
    rcases (Frontier.mem_of_pop? hpop).mp hd with rfl | hd
    · apply hc
    · apply ih h hd

/-- The entry that comes out is the least one that is live. -/
theorem atMost_of_nextLive? (h : nextLive? q labels f = some (e, rest)) (hf : f.Ordered) :
  rest.Ordered ∧ ∀ d ∈ f, isLive q labels d = true → e.atMost d = true
  := by
  fun_induction nextLive? q labels f with
  | case1 f hpop => simp at h
  | case2 f c others hpop hc =>
    simp only [Option.some.injEq, Prod.mk.injEq] at h
    obtain ⟨rfl, rfl⟩ := h
    obtain ⟨hrest, hleast⟩ := hf.pop? hpop
    use hrest
    intro d hd _
    apply hleast d hd
  | case3 f c others hpop hc ih =>
    obtain ⟨hothers, -⟩ := hf.pop? hpop
    obtain ⟨hrest, hleast⟩ := ih h hothers
    use hrest
    intro d hd hlive
    rcases (Frontier.mem_of_pop? hpop).mp hd with rfl | hd
    · contradiction
    · apply hleast d hd hlive

/-- The ticket of a live entry is that of its pose. -/
theorem ticket?_of_isLive (h : isLive q labels e = true) :
  labels.ticket? q e.pose = some e.ticket
  := by
  simp only [isLive, Bool.and_eq_true, beq_iff_eq] at h
  apply h.1

theorem exists_label_of_isLive (h : isLive q labels e = true) :
  ∃ label, labels.find? q e.pose = some label ∧ label.ticket = some e.ticket
  := by
  have hticket := ticket?_of_isLive h
  rw [Labels.ticket?, Option.bind_eq_some_iff] at hticket
  apply hticket

/-! ### Reaching a neighbour -/

/-- The search after a neighbour got a new label. -/
def reach (q : Quest) (origin : Pose) (tentative : Float32) (s : Search) (target : Pose) : Search :=
  let ticket := (s.labels.ticket? q target).getD (s.lastTicket + 1)
  { labels := s.labels.put q target ⟨tentative, some origin, some ticket⟩
    lastTicket := if (s.labels.ticket? q target).isSome then s.lastTicket else s.lastTicket + 1
    frontier := s.frontier.push (q.entry tentative ticket target) }

/-- A move is of use when it makes its target cheaper. -/
theorem relax_eq (origin : Pose) (cost : Float32) (s : Search) (target : Pose) (step : Float32) :
  relax q origin cost s (target, step)
    = if s.labels.cost q target ≤ cost + step then s else reach q origin (cost + step) s target
  := by
  obtain ⟨labels, lastTicket, frontier⟩ := s
  rfl

/-- What reaching each neighbour keeps, an expansion keeps. -/
theorem expand_preserves (Inv : Search → Prop) {p : Pose}
    (hrelax : ∀ s m, m ∈ q.moves p → Inv s → Inv (relax q p (t.labels.cost q p) s m)) (ht : Inv t) :
  Inv (expand q t p)
  := by
  unfold expand
  apply List.foldlRecOn (q.moves p) _ ht
  intro s hs m hm
  apply hrelax s m hm hs

/-! ### Expanding poses -/

/-- The search with an entry taken out and its pose closed. -/
def taken (q : Quest) (s : Search) (e : Entry) (rest : Frontier) : Search :=
  ⟨s.labels.close q e.pose, s.lastTicket, rest⟩

/-- Without a live entry the search gives up. -/
theorem run_of_none {budget : ℕ} (h : nextLive? q s.labels s.frontier = none) :
  run q budget s = none
  := by
  obtain ⟨labels, lastTicket, frontier⟩ := s
  unfold run
  rw [h]

/-- The next live entry ends the search on the goal, and is expanded elsewhere. -/
theorem run_of_some {budget : ℕ} (h : nextLive? q s.labels s.frontier = some (e, rest)) :
  run q budget s =
    if e.pose.cell = q.goal then some (e.pose, s.labels.close q e.pose)
    else match budget with
      | 0 => none
      | budget + 1 => run q budget (expand q (taken q s e rest) e.pose)
  := by
  obtain ⟨labels, lastTicket, frontier⟩ := s
  cases budget with
  | zero => rw [run, h]
  | succ budget =>
    rw [run, h]
    rfl

/-- From `s`, the search gets to `t` by the expansion of `n` poses, none of them on the goal. -/
inductive Expands (q : Quest) : ℕ → Search → Search → Prop
  | refl (s : Search) : Expands q 0 s s
  | step {n : ℕ} {s t : Search} {e : Entry} {rest : Frontier} :
      nextLive? q s.labels s.frontier = some (e, rest) → e.pose.cell ≠ q.goal →
      Expands q n (expand q (taken q s e rest) e.pose) t → Expands q (n + 1) s t

/-- What one expansion keeps, all of them keep. -/
theorem Expands.preserves {Inv : Search → Prop} {n : ℕ}
    (hstep : ∀ s e rest, nextLive? q s.labels s.frontier = some (e, rest) →
      e.pose.cell ≠ q.goal → Inv s → Inv (expand q (taken q s e rest) e.pose))
    (h : Expands q n s t) (hs : Inv s) :
  Inv t
  := by
  induction h with
  | refl s => apply hs
  | step hnext hgoal _ ih => apply ih (hstep _ _ _ hnext hgoal hs)

/-- A search with an answer has come to an entry on the goal. -/
theorem exists_expands_of_run_eq_some {budget : ℕ} {p : Pose}
    (h : run q budget s = some (p, labels)) :
  ∃ n t e rest, Expands q n s t ∧ nextLive? q t.labels t.frontier = some (e, rest) ∧
    e.pose = p ∧ p.cell = q.goal ∧ labels = t.labels.close q p
  := by
  fun_induction run q budget s with
  | case1 => simp at h
  | case2 budget labels lastTicket frontier e rest hnext closed hgoal =>
    simp only [Option.some.injEq, Prod.mk.injEq] at h
    obtain ⟨rfl, rfl⟩ := h
    exact ⟨0, ⟨labels, lastTicket, frontier⟩, e, rest, .refl _, hnext, rfl, hgoal, rfl⟩
  | case3 => simp at h
  | case4 labels lastTicket frontier e rest hnext closed hgoal budget ih =>
    obtain ⟨n, t, d, others, hexp, hd⟩ := ih h
    exact ⟨n + 1, t, d, others, .step hnext hgoal hexp, hd⟩

/-- A search without an answer has run out of live entries, or it would have to expand more poses
than it may. -/
theorem exists_expands_of_run_eq_none {budget : ℕ} (h : run q budget s = none) :
  (∃ n t, Expands q n s t ∧ nextLive? q t.labels t.frontier = none)
    ∨ ∃ t, Expands q (budget + 1) s t
  := by
  fun_induction run q budget s with
  | case1 budget labels lastTicket frontier hnext =>
    left
    exact ⟨0, ⟨labels, lastTicket, frontier⟩, .refl _, hnext⟩
  | case2 => simp at h
  | case3 labels lastTicket frontier e rest hnext hgoal =>
    right
    exact ⟨_, .step hnext hgoal (.refl _)⟩
  | case4 labels lastTicket frontier e rest hnext closed hgoal budget ih =>
    rcases ih h with ⟨n, t, hexp, ht⟩ | ⟨t, hexp⟩
    · left
      exact ⟨n + 1, t, .step hnext hgoal hexp, ht⟩
    · right
      exact ⟨t, .step hnext hgoal hexp⟩

end DiagramLayout.Search
