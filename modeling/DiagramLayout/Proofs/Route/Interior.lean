import DiagramLayout.Proofs.Route.Reachability

/-!
# The way between its ends

The search expands no pose on the goal, so no pose is reached from there, and the way that it finds
comes to the goal at its end only. All cells of the way behind the start are free.
-/

namespace DiagramLayout

/-- No pose was reached from a pose on the goal. -/
def Labels.PassesBy (labels : Labels) (q : Quest) : Prop :=
  ∀ p o, q.Has p → labels.Leads q p o → o.cell ≠ q.goal

namespace Search

variable {q : Quest} {s t : Search} {o p target : Pose} {step cost : Float32}

/-- At the beginning no pose was reached from another. -/
theorem passesBy_initial (hstart : q.Has q.startPose) :
  (initial q).labels.PassesBy q
  := by
  intro p o hp hlead
  rw [Labels.Leads, Labels.parent?, find?_initial hstart hp] at hlead
  split_ifs at hlead
  · contradiction
  · contradiction

/-- Taking an entry reaches nothing. -/
theorem passesBy_taken {e : Entry} (rest : Frontier) (h : s.labels.PassesBy q)
    (he : q.Has e.pose) :
  (taken q s e rest).labels.PassesBy q
  := by
  intro p o hp hlead
  rw [Labels.Leads, taken, Labels.parent?_close he hp] at hlead
  apply h p o hp hlead

/-- A pose off the goal may be gone on from. -/
theorem passesBy_reach (hs : s.Rooted q) (h : s.labels.PassesBy q) (ho : q.Has o)
    (hne : o.cell ≠ q.goal) (hmove : (target, step) ∈ q.moves o) :
  (reach q o cost s target).labels.PassesBy q
  := by
  have htarget := Quest.has_of_mem_moves ho hmove
  intro p r hp hlead
  by_cases hpt : target = p
  · subst hpt
    rw [Labels.Leads, reach, Labels.parent?_of_find?
      (Labels.find?_put_self hs.labels.size htarget), Option.some.injEq] at hlead
    rw [← hlead]
    apply hne
  · rw [Labels.Leads, Labels.parent?, find?_reach_of_ne hs htarget hp hpt] at hlead
    apply h p r hp hlead

/-- An expansion of a pose off the goal reaches no pose from the goal. -/
theorem passesBy_of_expands (hstart : q.Has q.startPose) {n : ℕ}
    (h : Expands q n (initial q) t) :
  t.Rooted q ∧ t.labels.PassesBy q
  := by
  apply h.preserves _ ⟨rooted_initial hstart, passesBy_initial hstart⟩
  rintro s e rest hnext hgoal ⟨hs, hpasses⟩
  have hkept : ∀ label, q.Has e.pose →
      KeptByReach q e.pose label fun s => s.labels.PassesBy q := by
    intro label he r target step hr hinv _ hmove _
    apply passesBy_reach hr hinv he hgoal hmove
  apply hs.step hstart hnext hkept
  apply passesBy_taken _ hpasses (hs.frontier e (mem_of_nextLive? hnext).1)

/-- When the goal is met, no pose was reached from a pose on the goal. -/
theorem passesBy_of_run (hstart : q.Has q.startPose) {budget : ℕ} {labels : Labels}
    (h : run q budget (initial q) = some (p, labels)) :
  labels.PassesBy q
  := by
  obtain ⟨n, t, e, rest, hexp, hnext, rfl, -, rfl⟩ := exists_expands_of_run_eq_some h
  obtain ⟨ht, hpasses⟩ := passesBy_of_expands hstart hexp
  apply passesBy_taken rest hpasses (ht.frontier e (mem_of_nextLive? hnext).1)

end Search

/-- A way back from a pose comes through the goal at its end only. -/
theorem Labels.Trail.ne_goal {labels : Labels} {q : Quest} {p : Pose} {cells : List Cell}
    (h : labels.Trail q p cells) (hlabels : labels.Rooted q) (hpasses : labels.PassesBy q)
    (hp : q.Has p) :
  ∀ c ∈ cells.dropLast, c ≠ q.goal
  := by
  induction h with
  | origin _ =>
    intro c hc
    contradiction
  | @step p o cells hparent htrail ih =>
    have hlead : labels.Leads q p o := hparent
    have ho := hlabels.has_of_leads hp hlead
    intro c hc
    rw [List.dropLast_concat] at hc
    have hne : cells ≠ [] := by
      rintro rfl
      contradiction
    have hlast : cells.getLast hne = o.cell := by
      have hget := htrail.getLast?
      rwa [List.getLast?_eq_some_getLast hne, Option.some.injEq] at hget
    rw [← List.dropLast_append_getLast hne, List.mem_append, List.mem_singleton, hlast] at hc
    rcases hc with hc | rfl
    · apply ih ho c hc
    · apply hpasses p o hp hlead

/-- The way that a search finds comes through the goal at its end only. -/
theorem Quest.ne_goal_of_solve? {q : Quest} {cells : List Cell} (hstart : q.Has q.startPose)
    (h : q.solve? = some (some cells)) :
  ∀ c ∈ cells.dropLast, c ≠ q.goal
  := by
  obtain ⟨p, labels, hmeet, htrail⟩ := exists_trail_of_solve? h
  obtain ⟨hlabels, hp, -⟩ := Search.rooted_of_run hstart hmeet
  apply htrail.ne_goal hlabels (Search.passesBy_of_run hstart hmeet) hp

end DiagramLayout
