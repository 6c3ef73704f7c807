import DiagramLayout.Proofs.Route.Checked.Grid

/-!
# Checked searches

The poses that a search reads, labels and puts into the frontier stand on the grid, and there is one
label for each pose of the grid. So no step of a search fails, and neither does the way back from the
goal, whatever the steps cost.
-/

namespace DiagramLayout

/-- A quest on a modest grid that starts and ends on the grid. -/
structure Quest.IsModest (q : Quest) : Prop where
  grid : q.grid.IsModest
  start : q.grid.lattice.inBounds q.start = true
  goal : q.grid.lattice.inBounds q.goal = true

/-- The start pose of a modest quest is on the grid. -/
theorem Quest.IsModest.has_startPose {q : Quest} (h : q.IsModest) :
  q.Has q.startPose
  := h.start

namespace Checked

variable {q : Quest} (hq : q.IsModest)

include hq

/-! ### Costs and places -/

/-- The cost of a step within the bounds is computed without a fault. -/
theorem stepCost_eq {target : Cell} (p : Pose) (h : Heading)
    (ht : q.grid.lattice.inBounds target = true) :
  stepCost q p h target = pure (q.stepCost p h target)
  := by
  rw [stepCost, crowding_eq hq.grid ht, pure_bind]
  rfl

theorem remaining_eq {c : Cell} (hc : q.grid.lattice.inBounds c = true) :
  remaining q c = pure (q.remaining c)
  := by
  obtain ⟨hcol, hrow⟩ := natCast_lt hq.grid hc
  obtain ⟨hcol', hrow'⟩ := natCast_lt hq.grid hq.goal
  rw [remaining, distance, narrow_eq (by omega) (by omega), pure_bind,
    narrow_eq (by omega) (by omega), pure_bind, narrow_eq (by omega) (by omega), pure_bind,
    narrow_eq (by omega) (by omega), pure_bind, narrow_eq (by omega) (by omega), pure_bind]
  rfl

theorem entry_eq {p : Pose} (hp : q.Has p) (cost : Float32) (ticket : ℕ) :
  entry q cost ticket p = pure (q.entry cost ticket p)
  := by
  rw [entry, remaining_eq hq hp, pure_bind]
  rfl

/-- The index of a pose on the grid is computed without a fault. -/
theorem poseIndex_eq {p : Pose} (hp : q.Has p) :
  poseIndex q p = pure (q.index p : ℤ)
  := by
  rw [poseIndex, index_eq hq.grid.lattice hp, pure_bind, Quest.index, Nat.cast_add, Nat.cast_mul]

/-! ### Labels -/

section Labels

variable {labels : Labels} (hlabels : labels.size = q.poseCount) {p : Pose}

include hlabels

omit hq in
/-- The index of a pose on the grid is a place in the labels. -/
theorem index_lt_labels (hp : q.Has p) :
  q.index p < labels.size
  := by
  rw [hlabels]
  apply Quest.index_lt hp

/-- The label of a pose on the grid is read without a fault. -/
theorem find_eq (hp : q.Has p) :
  find labels q p = pure (labels.find? q p)
  := by
  have hlt := index_lt_labels hlabels hp
  rw [find, poseIndex_eq hq hp, pure_bind, read_eq hlt, Labels.find?,
    Array.getElem?_eq_getElem hlt]
  rfl

theorem cost_eq (hp : q.Has p) :
  cost labels q p = pure (labels.cost q p)
  := by
  rw [cost, find_eq hq hlabels hp, pure_bind, Labels.cost]
  cases labels.find? q p <;> rfl

theorem ticket?_eq (hp : q.Has p) :
  ticket? labels q p = pure (labels.ticket? q p)
  := by
  rw [ticket?, find_eq hq hlabels hp, pure_bind, Labels.ticket?]

theorem put_eq (hp : q.Has p) (label : Label) :
  put labels q p label = pure (labels.put q p label)
  := by
  rw [put, poseIndex_eq hq hp, pure_bind, write_eq (index_lt_labels hlabels hp), Labels.put]

theorem close_eq (hp : q.Has p) :
  close labels q p = pure (labels.close q p)
  := by
  have hlt := index_lt_labels hlabels hp
  rw [close, find_eq hq hlabels hp, pure_bind, poseIndex_eq hq hp, pure_bind, write_eq hlt,
    Labels.close, Labels.find?, Array.getElem?_eq_getElem hlt]
  rfl

/-! ### The frontier -/

theorem isLive_eq {e : Entry} (he : q.Has e.pose) :
  isLive q labels e = pure (Search.isLive q labels e)
  := by
  rw [isLive, ticket?_eq hq hlabels he, pure_bind, Search.isLive]
  split_ifs with hticket
  · rw [cost_eq hq hlabels he, pure_bind, remaining_eq hq he, pure_bind, hticket, Bool.true_and]
  · rw [Bool.eq_false_iff.mpr hticket, Bool.false_and]

omit hq hlabels in
/-- The next live entry is the one that comes out, or one behind it. -/
theorem nextLive?_of_pop? {f rest : Frontier} {e : Entry} (h : f.pop? = some (e, rest)) :
  nextLive? q labels f = isLive q labels e >>= fun live =>
    if live then pure (some (e, rest)) else nextLive? q labels rest
  := by
  rw [nextLive?]
  split
  · next hpop => rw [h] at hpop; cases hpop
  · next d others hpop => rw [h] at hpop; cases hpop; rfl

/-- The next live entry is found without a fault, when all entries are of poses on the grid. -/
theorem nextLive?_eq {f : Frontier} (hf : ∀ e ∈ f, q.Has e.pose) :
  nextLive? q labels f = pure (Search.nextLive? q labels f)
  := by
  fun_induction Search.nextLive? q labels f with
  | case1 f hpop =>
    rw [Frontier.eq_empty_of_pop? hpop, nextLive?]
    rfl
  | case2 f e rest hpop hlive =>
    have he := hf e ((Frontier.mem_of_pop? hpop).mpr (.inl rfl))
    rw [nextLive?_of_pop? hpop, isLive_eq hq hlabels he, pure_bind, if_pos hlive]
  | case3 f e rest hpop hlive ih =>
    have he := hf e ((Frontier.mem_of_pop? hpop).mpr (.inl rfl))
    rw [nextLive?_of_pop? hpop, isLive_eq hq hlabels he, pure_bind, if_neg hlive]
    apply ih
    intro d hd
    apply hf d ((Frontier.mem_of_pop? hpop).mpr (.inr hd))

end Labels

/-! ### Expanding poses -/

theorem initial_eq :
  initial q = pure (Search.initial q)
  := by
  rw [initial, put_eq hq Array.size_replicate hq.has_startPose, pure_bind,
    entry_eq hq hq.has_startPose, pure_bind]
  rfl

section Steps

variable {s : Search} {p target : Pose}

/-- A move to a pose on the grid is tried without a fault. -/
theorem relax_eq (hs : s.labels.size = q.poseCount) (ht : q.Has target) (origin : Pose)
    (known step : Float32) :
  relax q origin known s target step = pure (Search.relax q origin known s (target, step))
  := by
  rw [relax, cost_eq hq hs ht, pure_bind, Search.relax_eq]
  split_ifs with hcost
  · rfl
  · simp only [ticket?_eq hq hs ht, put_eq hq hs ht, entry_eq hq ht, pure_bind]
    rfl

omit hq in
/-- Trying a move leaves the number of labels. -/
theorem size_relax (hs : s.labels.size = q.poseCount) (origin : Pose) (known : Float32)
    (move : Pose × Float32) :
  (Search.relax q origin known s move).labels.size = q.poseCount
  := by
  rw [Search.relax_eq]
  split_ifs
  · apply hs
  · rw [Search.reach, Labels.size_put, hs]

/-- A pose on the grid is expanded without a fault. -/
theorem expand_eq (hs : s.labels.size = q.poseCount) (hp : q.Has p) :
  expand q s p = pure (Search.expand q s p)
  := by
  rw [expand, cost_eq hq hs hp, pure_bind, Search.expand, Quest.moves, List.foldl_filterMap]
  refine (foldlM_eq (fun t : Search => t.labels.size = q.poseCount) ?_ hs).1
  intro t ht h _
  rw [advance, open?_eq hq.grid hp, pure_bind]
  cases hopen : q.grid.open? p.cell h with
  | none => exact ⟨rfl, ht⟩
  | some c =>
    have hc : q.Has ⟨c, some h⟩ := Lattice.inBounds_of_step? hp (Grid.open?_eq_some.mp hopen).1
    simp only [stepCost_eq hq p h hc, pure_bind, Option.map_some]
    exact ⟨relax_eq hq ht hc p _ _, size_relax ht _ _ _⟩

end Steps

/-! ### Runs -/

theorem run_of_none {s : Search} (hs : s.Rooted q) (budget : ℕ)
    (h : Search.nextLive? q s.labels s.frontier = none) :
  run q budget s = pure none
  := by
  obtain ⟨labels, lastTicket, frontier⟩ := s
  cases budget <;> rw [run, nextLive?_eq hq hs.labels.size hs.frontier, pure_bind, h]

theorem run_of_some {s : Search} (hs : s.Rooted q) (budget : ℕ) {e : Entry} {rest : Frontier}
    (h : Search.nextLive? q s.labels s.frontier = some (e, rest)) :
  run q budget s =
    if e.pose.cell = q.goal then pure (some (e.pose, s.labels.close q e.pose))
    else match budget with
      | 0 => pure none
      | budget + 1 => run q budget (Search.expand q (Search.taken q s e rest) e.pose)
  := by
  have he := hs.frontier e (Search.mem_of_nextLive? h).1
  have hexpand := expand_eq hq (s := Search.taken q s e rest)
    (by rw [Search.taken, Labels.size_close, hs.labels.size]) he
  obtain ⟨labels, lastTicket, frontier⟩ := s
  rw [Search.taken] at hexpand
  cases budget with
  | zero =>
    rw [run, nextLive?_eq hq hs.labels.size hs.frontier, pure_bind, h]
    simp only [close_eq hq hs.labels.size he, pure_bind]
  | succ budget =>
    rw [run, nextLive?_eq hq hs.labels.size hs.frontier, pure_bind, h]
    simp only [close_eq hq hs.labels.size he, pure_bind, hexpand, Search.taken]

/-- The search runs without a fault. -/
theorem run_eq {s : Search} (hs : s.Rooted q) (budget : ℕ) :
  run q budget s = pure (Search.run q budget s)
  := by
  induction budget generalizing s with
  | zero =>
    cases hnext : Search.nextLive? q s.labels s.frontier with
    | none => rw [run_of_none hq hs _ hnext, Search.run_of_none hnext]
    | some next =>
      rw [run_of_some hq hs _ hnext, Search.run_of_some hnext]
      split_ifs <;> rfl
  | succ budget ih =>
    cases hnext : Search.nextLive? q s.labels s.frontier with
    | none => rw [run_of_none hq hs _ hnext, Search.run_of_none hnext]
    | some next =>
      rw [run_of_some hq hs _ hnext, Search.run_of_some hnext]
      simp only [ih (hs.next hq.has_startPose hnext)]
      split_ifs <;> rfl

/-- The goal is met without a fault. -/
theorem meet?_eq :
  meet? q = pure q.meet?
  := by
  rw [meet?, initial_eq hq, pure_bind, run_eq hq (Search.rooted_initial hq.has_startPose)]
  rfl

/-! ### The way back -/

section Trails

variable {labels : Labels} (hlabels : labels.Rooted q) {p : Pose}

include hlabels

/-- One pose of the way back is read without a fault. -/
theorem checkedTrail?_of_parent? (hp : q.Has p) (after : List Cell) :
  labels.checkedTrail? q p after = match labels.parent? q p with
    | none => some (.ok (p.cell :: after))
    | some before => labels.checkedTrail? q before (p.cell :: after)
  := by
  rw [Labels.checkedTrail?, find_eq hq hlabels.size hp]
  rfl

/-- Where the way back ends, it is read without fault. -/
theorem checkedTrail?_of_trail {cells : List Cell} (h : labels.Trail q p cells) (hp : q.Has p)
    (after : List Cell) :
  labels.checkedTrail? q p after = some (.ok (cells ++ after))
  := by
  induction h generalizing after with
  | origin hparent =>
    rw [checkedTrail?_of_parent? hq hlabels hp, hparent]
    rfl
  | step hparent _ ih =>
    rw [checkedTrail?_of_parent? hq hlabels hp, hparent]
    simp only
    rw [ih (hlabels.has_of_leads hp hparent), List.append_assoc]
    rfl

/-- Only a way back that ends is read to an end. -/
theorem exists_of_checkedTrail? {after : List Cell} {r : Checked (List Cell)}
    (h : labels.checkedTrail? q p after = some r) (hp : q.Has p) :
  ∃ cells, labels.Trail q p cells
  := by
  revert h hp
  apply Labels.checkedTrail?.partial_correctness labels q fun p _ _ =>
    q.Has p → ∃ cells, labels.Trail q p cells
  intro rec ih p after r h hp
  rw [find_eq hq hlabels.size hp] at h
  cases hparent : labels.parent? q p with
  | none => exact ⟨_, .origin hparent⟩
  | some before =>
    have hbind : (labels.find? q p).bind Label.parent = some before := hparent
    have hrec : rec before (p.cell :: after) = some r := by
      simpa only [pure, Except.pure, hbind] using h
    obtain ⟨cells, htrail⟩ := ih before _ r hrec (hlabels.has_of_leads hp hparent)
    exact ⟨_, .step hparent htrail⟩

/-- The way back is read without a fault, when it ends. -/
theorem checkedTrail?_eq (hp : q.Has p) (after : List Cell) :
  labels.checkedTrail? q p after = (labels.trail? q p after).map .ok
  := by
  by_cases htrail : ∃ cells, labels.Trail q p cells
  · obtain ⟨cells, htrail⟩ := htrail
    rw [checkedTrail?_of_trail hq hlabels htrail hp, htrail.trail?_eq, Option.map_some]
  · have hnone : labels.checkedTrail? q p after = none := by
      apply Option.eq_none_iff_forall_ne_some.mpr
      intro r hr
      apply htrail (exists_of_checkedTrail? hq hlabels hr hp)
    have hnone' : labels.trail? q p after = none := by
      apply Option.eq_none_iff_forall_ne_some.mpr
      intro cells hcells
      obtain ⟨front, hfront, -⟩ := Labels.exists_trail_of_trail? hcells
      apply htrail ⟨front, hfront⟩
    rw [hnone, hnone', Option.map_none]

end Trails

/-- The search of a modest quest is carried out without fault. -/
theorem solve?_eq :
  solve? q = q.solve?.map .ok
  := by
  rw [solve?, meet?_eq hq, Quest.solve?]
  cases hmeet : q.meet? with
  | none => rfl
  | some met =>
    obtain ⟨p, labels⟩ := met
    obtain ⟨hlabels, hp, -⟩ := Search.rooted_of_run hq.has_startPose hmeet
    have hanswer : q.answer? (some (p, labels)) = (labels.trail? q p []).map some := rfl
    rw [hanswer]
    simp only [pure, Except.pure, checkedTrail?_eq hq hlabels hp, Option.map_map]
    rfl

end Checked

end DiagramLayout
