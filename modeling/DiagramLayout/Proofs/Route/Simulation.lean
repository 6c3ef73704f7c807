import DiagramLayout.Proofs.Route.Termination
import DiagramLayout.Route.Scan
import Mathlib.Data.Prod.Lex

/-!
# The frontier and the list

The search that keeps a frontier finds what the search finds that scans a list. Poses wait in the
list in the order of their tickets. A pose that waits has an entry of its newest estimate in the
frontier, and any other entry of its ticket has a greater one, so the first live entry belongs to the
first pose of least estimate.
-/

namespace DiagramLayout

open Single

/-- A label without its ticket. -/
def Label.plain (label : Label) : Label :=
  ⟨label.cost, label.parent, none⟩

namespace Labels

variable {labels : Labels} {q : Quest} {p : Pose} {cells : List Cell}

/-- The labels without their tickets. -/
def plain (labels : Labels) : Labels :=
  labels.map (Option.map Label.plain)

theorem find?_plain :
  labels.plain.find? q p = (labels.find? q p).map Label.plain
  := by
  unfold find? plain
  rw [Array.getElem?_map]
  cases labels[q.index p]? with
  | none => rfl
  | some found => rfl

@[simp]
theorem cost_plain :
  labels.plain.cost q p = labels.cost q p
  := by
  unfold cost
  rw [find?_plain]
  cases labels.find? q p with
  | none => rfl
  | some label => rfl

@[simp]
theorem parent?_plain :
  labels.plain.parent? q p = labels.parent? q p
  := by
  unfold parent?
  rw [find?_plain]
  cases labels.find? q p with
  | none => rfl
  | some label => rfl

theorem plain_put {label : Label} :
  (labels.put q p label).plain = labels.plain.put q p label.plain
  := by
  unfold plain put
  rw [Array.map_setIfInBounds]
  rfl

@[simp]
theorem plain_close :
  (labels.close q p).plain = labels.plain
  := by
  unfold plain close
  apply Array.ext_getElem?
  intro i
  rw [Array.getElem?_map, Array.getElem?_map, Array.getElem?_modify]
  split_ifs with h
  · cases labels[i]? with
    | none => rfl
    | some found => cases found with
      | none => rfl
      | some label => rfl
  · rfl

/-- Tickets do not matter to the way back. -/
theorem trail_plain_iff :
  labels.plain.Trail q p cells ↔ labels.Trail q p cells
  := by
  constructor
  · intro h
    induction h with
    | origin hparent => exact .origin (parent?_plain.symm.trans hparent)
    | step hparent _ ih => exact .step (parent?_plain.symm.trans hparent) ih
  · intro h
    induction h with
    | origin hparent => exact .origin (parent?_plain.trans hparent)
    | step hparent _ ih => exact .step (parent?_plain.trans hparent) ih

/-- Tickets do not matter to the way back that is read off. -/
theorem trail?_plain :
  labels.plain.trail? q p [] = labels.trail? q p []
  := by
  apply Option.ext
  intro cells
  rw [trail?_eq_some_iff, trail?_eq_some_iff, trail_plain_iff]

end Labels

/-! ### The first pose of least estimate -/

namespace Scan

variable {q : Quest} {labels : Labels} {turn : Pose → ℕ}

/-- The pose of least estimate is one of those that wait. -/
theorem leastFrom_mem (best : Pose) (rest : List Pose) :
  leastFrom q labels best rest ∈ best :: rest
  := by
  induction rest generalizing best with
  | nil => exact List.mem_cons_self
  | cons p rest ih =>
    unfold leastFrom
    split_ifs
    · exact List.mem_cons_of_mem best (ih p)
    · apply List.cons_subset_cons best (List.subset_cons_self p rest)
      exact ih best

/-- The place of a pose in the order of estimates, and in the order of turns where these are the same. -/
def key (q : Quest) (labels : Labels) (turn : Pose → ℕ) (p : Pose) : ℚ ×ₗ ℕ :=
  toLex (value (estimate q labels p), turn p)

/-- In a list in the order of turns, the first pose of least estimate comes before all others. -/
theorem key_leastFrom_le (best : Pose) (rest : List Pose)
    (hnumber : ∀ p ∈ best :: rest, IsNumber (estimate q labels p))
    (hsorted : (best :: rest).Pairwise fun p r => turn p ≤ turn r) :
  ∀ p ∈ best :: rest, key q labels turn (leastFrom q labels best rest) ≤ key q labels turn p
  := by
  induction rest generalizing best with
  | nil =>
    intro p hp
    rw [List.mem_singleton.mp hp]
    rfl
  | cons next rest ih =>
    obtain ⟨hbest, hnext⟩ := List.forall_mem_cons.mp hnumber
    obtain ⟨hfirst, hrest⟩ := List.pairwise_cons.mp hsorted
    have hturn := hfirst next List.mem_cons_self
    unfold leastFrom
    -- Of equal estimates the earlier one is kept, whose turn comes first.
    split_ifs with hless
    · have hlt : key q labels turn next < key q labels turn best :=
        Prod.Lex.toLex_lt_toLex.mpr (Or.inl (lt_iff.mp hless).2.2)
      have hleast := ih next hnext hrest
      rw [List.forall_mem_cons]
      exact ⟨(hleast next List.mem_cons_self).trans hlt.le, hleast⟩
    · have hle : key q labels turn best ≤ key q labels turn next := by
        apply Prod.Lex.toLex_mono
        refine ⟨?_, hturn⟩
        by_contra! hlt
        apply hless
        apply lt_of_value (hnext next List.mem_cons_self) hbest hlt
      have hshort : (best :: rest).Sublist (best :: next :: rest) :=
        (List.sublist_cons_self next rest).cons_cons best
      have hleast := ih best (fun p hp => hnumber p (hshort.subset hp)) (hsorted.sublist hshort)
      obtain ⟨hself, hothers⟩ := List.forall_mem_cons.mp hleast
      rw [List.forall_mem_cons, List.forall_mem_cons]
      exact ⟨hself, hself.trans hle, hothers⟩

/-- A scan with nothing waiting gives up. -/
theorem run_of_nil {budget : ℕ} {t : Scan} (h : t.waiting = []) :
  run q budget t = none
  := by
  obtain ⟨labels, waiting⟩ := t
  simp only at h
  subst h
  unfold run
  rfl

/-- A scan with poses waiting takes the one of least estimate. -/
theorem run_of_cons {budget : ℕ} {t : Scan} {first : Pose} {others : List Pose}
    (h : t.waiting = first :: others) :
  run q budget t =
    if (leastFrom q t.labels first others).cell = q.goal then
      some (leastFrom q t.labels first others, t.labels)
    else match budget with
      | 0 => none
      | budget + 1 => run q budget (expand q
          ⟨t.labels, t.waiting.erase (leastFrom q t.labels first others)⟩
          (leastFrom q t.labels first others))
  := by
  obtain ⟨labels, waiting⟩ := t
  simp only at h
  subst h
  cases budget with
  | zero => rw [run]
  | succ budget => rw [run]

end Scan

namespace Search

variable {q : Quest} {s : Search} {t : Scan} {o p target : Pose} {step cost : Float32}

/-- The cost of a pose and the distance that is left from it. -/
def estimate (q : Quest) (s : Search) (p : Pose) : Float32 :=
  s.labels.cost q p + q.remaining p.cell

/-- The ticket of a pose that waits. -/
def turn (q : Quest) (s : Search) (p : Pose) : ℕ :=
  (s.labels.ticket? q p).getD 0

/-- An entry that was pushed: its ticket was drawn, its rank is that of its estimate, and while its
ticket is the one of its pose, its estimate is no less than the newest one. -/
structure IsDrawn (q : Quest) (s : Search) (e : Entry) : Prop where
  ticket : e.ticket ≤ s.lastTicket
  rank : e.rank = q.rank e.estimate
  unsigned : IsUnsigned e.estimate.toModel.unpack
  newest : s.labels.ticket? q e.pose = some e.ticket → s.estimate q e.pose ≤ e.estimate

/-- The search with a frontier and the search that scans a list are at the same point. -/
structure Simulates (q : Quest) (s : Search) (t : Scan) : Prop where
  grounded : s.Grounded q
  labels : t.labels = s.labels.plain
  unsigned : ∀ p label, q.Has p → s.labels.find? q p = some label →
    IsUnsigned label.cost.toModel.unpack
  waiting : ∀ p, p ∈ t.waiting ↔ q.Has p ∧ ∃ ticket, s.labels.ticket? q p = some ticket
  sorted : t.waiting.Pairwise fun p r => s.turn q p < s.turn q r
  ticket : ∀ p ticket, q.Has p → s.labels.ticket? q p = some ticket → ticket ≤ s.lastTicket
  ordered : s.frontier.Ordered
  drawn : ∀ e ∈ s.frontier, s.IsDrawn q e
  entry : ∀ p ticket, q.Has p → s.labels.ticket? q p = some ticket →
    q.entry (s.labels.cost q p) ticket p ∈ s.frontier

/-- A pose with a ticket has a label. -/
theorem exists_label_of_ticket? {labels : Labels} {ticket : ℕ}
    (h : labels.ticket? q p = some ticket) :
  ∃ label, labels.find? q p = some label ∧ label.ticket = some ticket
  := by
  rw [Labels.ticket?, Option.bind_eq_some_iff] at h
  apply h

/-- The turn of a pose that waits is its ticket. -/
theorem turn_of_ticket? {ticket : ℕ} (h : s.labels.ticket? q p = some ticket) :
  s.turn q p = ticket
  := by
  rw [turn, h]
  rfl

/-- The distance to the goal is not negative. -/
theorem nonneg_remaining (c : Cell) :
  0.0 ≤ q.remaining c
  := by
  apply nonneg_ofNat

namespace Simulates

/-! ### The next pose -/

/-- Both searches estimate a pose alike. -/
theorem estimate_eq (h : s.Simulates q t) (p : Pose) :
  Scan.estimate q t.labels p = s.estimate q p
  := by
  rw [Scan.estimate, h.labels, Labels.cost_plain, estimate]

theorem isUnsigned_estimate (h : s.Simulates q t) {ticket : ℕ} (hp : q.Has p)
    (hticket : s.labels.ticket? q p = some ticket) :
  IsUnsigned (s.estimate q p).toModel.unpack
  := by
  obtain ⟨label, hlabel, -⟩ := exists_label_of_ticket? hticket
  rw [estimate, Labels.cost_of_find? hlabel]
  apply isUnsigned_add (h.unsigned p label hp hlabel) (nonneg_remaining _)

/-- The estimates of the poses that wait are numbers. -/
theorem isNumber_estimate (h : s.Simulates q t) {ticket : ℕ} (hp : q.Has p)
    (hticket : s.labels.ticket? q p = some ticket) :
  IsNumber (s.estimate q p)
  := (h.isUnsigned_estimate hp hticket).isNaN_eq

/-- Values that are not negative are ranked by the frontier as numbers are. -/
theorem rank_eq {x : Float32} (h : IsUnsigned x.toModel.unpack) :
  q.rank x = Single.rank x
  := by
  have hnumber : x.isNaN = false := h.isNaN_eq
  rw [Quest.rank, hnumber]
  rfl

/-- The entry of the newest estimate of a waiting pose is live. -/
theorem isLive_newest {ticket : ℕ} (hticket : s.labels.ticket? q p = some ticket) :
  isLive q s.labels (q.entry (s.labels.cost q p) ticket p) = true
  := by
  obtain ⟨label, hlabel, hdrawn⟩ := exists_label_of_ticket? hticket
  rw [Labels.cost_of_find? hlabel]
  apply isLive_entry hlabel hdrawn

/-- A live entry has the newest estimate of its pose. -/
theorem value_estimate_of_isLive (h : s.Simulates q t) {e : Entry} (he : e ∈ s.frontier)
    (hlive : isLive q s.labels e = true) :
  value e.estimate = value (s.estimate q e.pose)
  := by
  have hticket := ticket?_of_isLive hlive
  have hhas := h.grounded.frontier e he
  have hdrawn := h.drawn e he
  apply le_antisymm
  · by_contra! hlt
    simp only [isLive, Bool.and_eq_true, Bool.not_eq_true', decide_eq_false_iff_not] at hlive
    apply hlive.2
    apply lt_of_value (h.isNumber_estimate hhas hticket) hdrawn.unsigned.isNaN_eq hlt
  · apply (le_iff.mp (hdrawn.newest hticket)).2.2

/-- No two poses wait with the same ticket. -/
theorem eq_of_turn (h : s.Simulates q t) {r : Pose} (hp : p ∈ t.waiting) (hr : r ∈ t.waiting)
    (heq : s.turn q p = s.turn q r) :
  p = r
  := by
  have hnodup : (t.waiting.map (s.turn q)).Nodup := by
    apply List.Pairwise.map (s.turn q) _ h.sorted
    intro a b hlt
    apply hlt.ne
  apply List.inj_on_of_nodup_map hnodup hp hr heq

/-- The frontier has no live entry exactly when nothing waits. -/
theorem nextLive?_eq_none_iff (h : s.Simulates q t) :
  nextLive? q s.labels s.frontier = none ↔ t.waiting = []
  := by
  constructor
  · intro hnone
    rw [List.eq_nil_iff_forall_not_mem]
    intro p hp
    obtain ⟨hhas, ticket, hticket⟩ := (h.waiting p).mp hp
    apply not_isLive_of_nextLive? hnone (h.entry p ticket hhas hticket) (isLive_newest hticket)
  · intro hnil
    cases hnext : nextLive? q s.labels s.frontier with
    | none => rfl
    | some found =>
      obtain ⟨e, rest⟩ := found
      have hlive := isLive_of_nextLive? hnext
      have hhas := h.grounded.frontier e (mem_of_nextLive? hnext).1
      have hmem := (h.waiting e.pose).mpr ⟨hhas, e.ticket, ticket?_of_isLive hlive⟩
      rw [hnil] at hmem
      contradiction

/-- The entry that comes out is no later than the newest entry of any pose that waits. -/
theorem key_le_of_nextLive? (h : s.Simulates q t) {e : Entry} {rest : Frontier}
    (hnext : nextLive? q s.labels s.frontier = some (e, rest)) (hp : p ∈ t.waiting) :
  Scan.key q t.labels (s.turn q) e.pose ≤ Scan.key q t.labels (s.turn q) p
  := by
  obtain ⟨hhas, ticket, hticket⟩ := (h.waiting p).mp hp
  have he := (mem_of_nextLive? hnext).1
  have hlive := isLive_of_nextLive? hnext
  have hunsigned := h.isUnsigned_estimate hhas hticket
  have hdrawn := h.drawn e he
  have hatMost := (atMost_of_nextLive? hnext h.ordered).2 _ (h.entry p ticket hhas hticket)
    (isLive_newest hticket)
  rw [Entry.atMost_iff] at hatMost
  change e.rank < q.rank (s.estimate q p) ∨ e.rank = q.rank (s.estimate q p) ∧ e.ticket ≤ ticket
    at hatMost
  rw [hdrawn.rank, rank_eq hdrawn.unsigned, rank_eq hunsigned, rank_lt_iff hdrawn.unsigned hunsigned,
    rank_eq_iff hdrawn.unsigned hunsigned, h.value_estimate_of_isLive he hlive] at hatMost
  rw [Scan.key, Scan.key, h.estimate_eq, h.estimate_eq, turn_of_ticket? hticket,
    turn_of_ticket? (ticket?_of_isLive hlive)]
  apply Prod.Lex.toLex_le_toLex.mpr hatMost

/-- The first live entry belongs to the first pose of least estimate. -/
theorem pose_eq_leastFrom (h : s.Simulates q t) {e : Entry} {rest : Frontier}
    (hnext : nextLive? q s.labels s.frontier = some (e, rest)) {first : Pose} {others : List Pose}
    (hwaiting : t.waiting = first :: others) :
  e.pose = Scan.leastFrom q t.labels first others
  := by
  have hnumber : ∀ p ∈ t.waiting, IsNumber (Scan.estimate q t.labels p) := by
    intro p hp
    obtain ⟨hhas, ticket, hticket⟩ := (h.waiting p).mp hp
    rw [h.estimate_eq]
    apply h.isNumber_estimate hhas hticket
  have hsorted := h.sorted.imp Nat.le_of_lt
  have hmem : Scan.leastFrom q t.labels first others ∈ t.waiting := by
    rw [hwaiting]
    apply Scan.leastFrom_mem
  have hpose : e.pose ∈ t.waiting := by
    rw [h.waiting]
    exact ⟨h.grounded.frontier e (mem_of_nextLive? hnext).1, e.ticket,
      ticket?_of_isLive (isLive_of_nextLive? hnext)⟩
  have hle := h.key_le_of_nextLive? hnext hmem
  rw [hwaiting] at hnumber hsorted
  have hge := Scan.key_leastFrom_le first others hnumber hsorted e.pose (hwaiting ▸ hpose)
  apply h.eq_of_turn hpose hmem
  apply (Prod.mk.inj (toLex.injective (le_antisymm hle hge))).2

/-! ### Taking out a pose -/

/-- When a pose is taken it loses its ticket, and the others keep theirs. -/
theorem ticket?_taken_eq_some_iff {e : Entry} {rest : Frontier} {ticket : ℕ} (he : q.Has e.pose)
    (hp : q.Has p) :
  (Search.taken q s e rest).labels.ticket? q p = some ticket
    ↔ p ≠ e.pose ∧ s.labels.ticket? q p = some ticket
  := by
  rw [Search.taken, Labels.ticket?, Labels.find?_close he hp, Labels.ticket?, ne_comm]
  cases s.labels.find? q p with
  | none => simp
  | some label => simp

/-- When a pose is taken all costs stay. -/
theorem cost_taken {e : Entry} {rest : Frontier} (he : q.Has e.pose) (hp : q.Has p) :
  (Search.taken q s e rest).labels.cost q p = s.labels.cost q p
  := Labels.cost_close he hp

/-- No pose waits twice. -/
theorem nodup_waiting (h : s.Simulates q t) :
  t.waiting.Nodup
  := by
  apply h.sorted.imp
  rintro a b hlt rfl
  apply lt_irrefl _ hlt

/-- The poses that wait are in the order of their tickets when one of them is taken out. -/
theorem sorted_taken (h : s.Simulates q t) {e : Entry} {rest : Frontier} (he : q.Has e.pose) :
  (t.waiting.erase e.pose).Pairwise
    fun p r => (Search.taken q s e rest).turn q p < (Search.taken q s e rest).turn q r
  := by
  have hturn : ∀ p ∈ t.waiting.erase e.pose,
      (Search.taken q s e rest).turn q p = s.turn q p := by
    intro p hp
    obtain ⟨hne, hp⟩ := h.nodup_waiting.mem_erase_iff.mp hp
    obtain ⟨hhas, ticket, hticket⟩ := (h.waiting p).mp hp
    rw [turn_of_ticket? hticket,
      turn_of_ticket? ((ticket?_taken_eq_some_iff he hhas).mpr ⟨hne, hticket⟩)]
  apply (h.sorted.sublist List.erase_sublist).imp_of_mem
  intro a b ha hb hlt
  rw [hturn a ha, hturn b hb]
  apply hlt

/-- When both searches take their next pose they are at the same point again. -/
theorem taken (hstart : q.Has q.startPose) (h : s.Simulates q t) {e : Entry} {rest : Frontier}
    (hnext : nextLive? q s.labels s.frontier = some (e, rest)) :
  (Search.taken q s e rest).Simulates q ⟨t.labels, t.waiting.erase e.pose⟩
  := by
  obtain ⟨he, hrest⟩ := mem_of_nextLive? hnext
  have hhas := h.grounded.frontier e he
  constructor
  case grounded => apply h.grounded.taken hstart hnext
  case labels =>
    rw [Search.taken, Labels.plain_close]
    apply h.labels
  case unsigned =>
    intro p label hp hlabel
    obtain ⟨found, hfound, hcost, -⟩ := Labels.exists_of_find?_close hp hhas hlabel
    rw [← hcost]
    apply h.unsigned p found hp hfound
  case waiting =>
    intro p
    rw [h.nodup_waiting.mem_erase_iff, h.waiting, and_left_comm, ← exists_and_left]
    apply and_congr_right
    intro hp
    simp only [ticket?_taken_eq_some_iff hhas hp]
  case sorted => apply h.sorted_taken hhas
  case ticket =>
    intro p ticket hp hdrawn
    apply h.ticket p ticket hp ((ticket?_taken_eq_some_iff hhas hp).mp hdrawn).2
  case ordered => apply (atMost_of_nextLive? hnext h.ordered).1
  case drawn =>
    intro d hd
    have hold := h.drawn d (hrest d hd)
    have hdhas := h.grounded.frontier d (hrest d hd)
    refine ⟨hold.ticket, hold.rank, hold.unsigned, ?_⟩
    intro hdrawn
    rw [estimate, cost_taken hhas hdhas]
    apply hold.newest ((ticket?_taken_eq_some_iff hhas hdhas).mp hdrawn).2
  case entry =>
    intro p ticket hp hdrawn
    obtain ⟨hne, hdrawn⟩ := (ticket?_taken_eq_some_iff hhas hp).mp hdrawn
    rw [cost_taken hhas hp]
    -- Only the entry that was taken has left the frontier, and it is of another pose.
    apply (eq_or_mem_of_nextLive? hnext (h.entry p ticket hp hdrawn)
      (isLive_newest hdrawn)).resolve_left
    rintro rfl
    apply hne rfl

/-! ### Reaching a neighbour -/

/-- A pose that is reached keeps the ticket that it has, or draws the next one. -/
theorem ticket?_reach_self (h : s.Simulates q t) (htarget : q.Has target) (o : Pose)
    (cost : Float32) :
  (reach q o cost s target).labels.ticket? q target
    = some ((s.labels.ticket? q target).getD (s.lastTicket + 1))
  := by
  apply Labels.ticket?_of_find? (Labels.find?_put_self h.grounded.labels.size htarget)

/-- Reaching a pose leaves the tickets of the others. -/
theorem ticket?_reach_of_ne (h : s.Simulates q t) (htarget : q.Has target) (hp : q.Has p)
    (hne : target ≠ p) :
  (reach q o cost s target).labels.ticket? q p = s.labels.ticket? q p
  := by
  apply Labels.ticket?_congr (find?_reach_of_ne h.grounded.rooted htarget hp hne)

/-- A pose that is reached gets the cost it is reached at. -/
theorem cost_reach_self (h : s.Simulates q t) (htarget : q.Has target) (o : Pose) (cost : Float32) :
  (reach q o cost s target).labels.cost q target = cost
  := by
  apply Labels.cost_of_find? (Labels.find?_put_self h.grounded.labels.size htarget)

/-- Reaching a pose leaves the costs of the others. -/
theorem cost_reach_of_ne (h : s.Simulates q t) (htarget : q.Has target) (hp : q.Has p)
    (hne : target ≠ p) :
  (reach q o cost s target).labels.cost q p = s.labels.cost q p
  := by
  apply Labels.cost_congr (find?_reach_of_ne h.grounded.rooted htarget hp hne)

/-- Tickets are drawn in increasing order. -/
theorem lastTicket_le_reach :
  s.lastTicket ≤ (reach q o cost s target).lastTicket
  := by
  simp only [reach]
  split_ifs
  · rfl
  · omega

/-- The ticket of a pose that is reached was drawn. -/
theorem ticket_le_reach (h : s.Simulates q t) (htarget : q.Has target) :
  (s.labels.ticket? q target).getD (s.lastTicket + 1) ≤ (reach q o cost s target).lastTicket
  := by
  simp only [reach]
  cases hticket : s.labels.ticket? q target with
  | none => simp
  | some ticket =>
    simp only [Option.getD_some, Option.isSome_some, if_true]
    apply h.ticket target ticket htarget hticket

/-- A pose that gets cheaper keeps its place in the list, and any other goes to its end. -/
theorem sorted_reach (h : s.Simulates q t) (htarget : q.Has target) :
  (if target ∈ t.waiting then t.waiting else t.waiting ++ [target]).Pairwise
    fun p r => (reach q o cost s target).turn q p < (reach q o cost s target).turn q r
  := by
  have hself := h.ticket?_reach_self htarget o cost
  have hother : ∀ p ∈ t.waiting, target ≠ p →
      (reach q o cost s target).turn q p = s.turn q p := by
    intro p hp hne
    rw [turn, ticket?_reach_of_ne h htarget ((h.waiting p).mp hp).1 hne, turn]
  split_ifs with hmem
  -- The target waits already, so all turns stay.
  · obtain ⟨-, ticket, hticket⟩ := (h.waiting target).mp hmem
    have hsame : ∀ p ∈ t.waiting, (reach q o cost s target).turn q p = s.turn q p := by
      intro p hp
      by_cases hne : target = p
      · subst hne
        rw [turn, hself, turn, hticket]
        rfl
      · apply hother p hp hne
    apply h.sorted.imp_of_mem
    intro a b ha hb hlt
    rw [hsame a ha, hsame b hb]
    apply hlt
  -- The target draws a ticket that is later than all others.
  · have hnone : s.labels.ticket? q target = none := by
      rw [Option.eq_none_iff_forall_ne_some]
      intro ticket hticket
      apply hmem ((h.waiting target).mpr ⟨htarget, ticket, hticket⟩)
    have hne : ∀ p ∈ t.waiting, target ≠ p := by
      rintro p hp rfl
      apply hmem hp
    apply List.pairwise_append.mpr
    refine ⟨?_, List.pairwise_singleton _ _, ?_⟩
    · apply h.sorted.imp_of_mem
      intro a b ha hb hlt
      rw [hother a ha (hne a ha), hother b hb (hne b hb)]
      apply hlt
    · intro a ha b hb
      obtain rfl := List.mem_singleton.mp hb
      obtain ⟨hhas, ticket, hticket⟩ := (h.waiting a).mp ha
      have hle := h.ticket a ticket hhas hticket
      rw [hother a ha (hne a ha), turn_of_ticket? hticket, turn_of_ticket? hself, hnone,
        Option.getD_none]
      omega

/-- The poses that wait after a pose is reached are those with a ticket. -/
theorem waiting_reach (h : s.Simulates q t) (htarget : q.Has target) (p : Pose) :
  p ∈ (if target ∈ t.waiting then t.waiting else t.waiting ++ [target])
    ↔ q.Has p ∧ ∃ ticket, (reach q o cost s target).labels.ticket? q p = some ticket
  := by
  have hmem : p ∈ (if target ∈ t.waiting then t.waiting else t.waiting ++ [target])
      ↔ p ∈ t.waiting ∨ p = target := by
    split_ifs with hwaits
    · constructor
      · intro hp
        left
        apply hp
      · rintro (hp | rfl)
        · apply hp
        · apply hwaits
    · rw [List.mem_append, List.mem_singleton]
  rw [hmem]
  by_cases hne : target = p
  · subst hne
    apply iff_of_true (Or.inr rfl)
    exact ⟨htarget, _, h.ticket?_reach_self htarget o cost⟩
  · rw [or_iff_left (Ne.symm hne), h.waiting]
    constructor
    · rintro ⟨hp, hticket⟩
      rw [ticket?_reach_of_ne h htarget hp hne]
      exact ⟨hp, hticket⟩
    · rintro ⟨hp, hticket⟩
      rw [ticket?_reach_of_ne h htarget hp hne] at hticket
      exact ⟨hp, hticket⟩

/-- The costs of reached poses are not negative, with no negative zero among them. -/
theorem isUnsigned_add_step {label : Label} (h : s.Simulates q t) (ho : q.Has o)
    (hlabel : s.labels.find? q o = some label) (hstep : 0.0 ≤ step) :
  IsUnsigned (label.cost + step).toModel.unpack
  := by
  apply isUnsigned_add (h.unsigned o label ho hlabel) hstep

/-- The entries that were pushed before a pose gets cheaper keep their tickets, and the estimates
that they have are not too small. -/
theorem drawn_reach (h : s.Simulates q t) (htarget : q.Has target)
    (hunsigned : IsUnsigned cost.toModel.unpack) (hless : ¬s.labels.cost q target ≤ cost)
    {e : Entry} (he : e ∈ s.frontier) :
  (reach q o cost s target).IsDrawn q e
  := by
  have hold := h.drawn e he
  have hhas := h.grounded.frontier e he
  refine ⟨hold.ticket.trans lastTicket_le_reach, hold.rank, hold.unsigned, ?_⟩
  intro hticket
  by_cases hne : target = e.pose
  · subst hne
    rw [h.ticket?_reach_self htarget] at hticket
    cases hwaits : s.labels.ticket? q e.pose with
    | none =>
      rw [hwaits, Option.getD_none, Option.some.injEq] at hticket
      have hle := hold.ticket
      omega
    | some ticket =>
      rw [hwaits, Option.getD_some] at hticket
      have hnewest := hold.newest (hwaits.trans hticket)
      apply Single.le_trans _ hnewest
      rw [estimate, h.cost_reach_self htarget, estimate]
      apply add_le_add_of_nonneg (nonneg_of_isUnsigned hunsigned) _ (nonneg_remaining _)
      apply Single.le_of_lt
      apply lt_of_not_le (h.grounded.labels.isNumber_cost htarget) hunsigned.isNaN_eq hless
  · rw [ticket?_reach_of_ne h htarget hhas hne] at hticket
    rw [estimate, h.cost_reach_of_ne htarget hhas hne]
    apply hold.newest hticket

/-- The entry that is pushed when a pose gets cheaper has the newest estimate. -/
theorem drawn_reach_self (h : s.Simulates q t) (htarget : q.Has target) (o : Pose)
    (hunsigned : IsUnsigned cost.toModel.unpack) :
  (reach q o cost s target).IsDrawn q
    (q.entry cost ((s.labels.ticket? q target).getD (s.lastTicket + 1)) target)
  := by
  have hestimate := isUnsigned_add hunsigned (nonneg_remaining (q := q) target.cell)
  refine ⟨h.ticket_le_reach htarget, rfl, hestimate, ?_⟩
  intro _
  change (reach q o cost s target).estimate q target ≤ cost + q.remaining target.cell
  rw [estimate, h.cost_reach_self htarget]
  apply Single.le_refl hestimate.isNaN_eq

/-- When both searches reach a pose they are at the same point again. -/
theorem reach (hq : q.IsSteady) (hstart : q.Has q.startPose) (h : s.Simulates q t)
    {label : Label} (ho : q.Has o) (hlabel : s.labels.find? q o = some label)
    (hmove : (target, step) ∈ q.moves o) (hstep : 0.0 ≤ step)
    (hless : ¬s.labels.cost q target ≤ label.cost + step) :
  (Search.reach q o (label.cost + step) s target).Simulates q
    ⟨t.labels.put q target ⟨label.cost + step, some o, none⟩,
      if target ∈ t.waiting then t.waiting else t.waiting ++ [target]⟩
  := by
  have htarget := Quest.has_of_mem_moves ho hmove
  have hunsigned := h.isUnsigned_add_step ho hlabel hstep
  -- The target keeps its ticket when it waits already, and draws the next one otherwise.
  have hself : (Search.reach q o (label.cost + step) s target).labels.find? q target
      = some ⟨label.cost + step, some o,
        some ((s.labels.ticket? q target).getD (s.lastTicket + 1))⟩ :=
    Labels.find?_put_self h.grounded.labels.size htarget
  constructor
  case grounded => apply h.grounded.reach hq hstart ho hlabel hmove hless
  case labels =>
    rw [Search.reach, Labels.plain_put, h.labels]
    rfl
  case unsigned =>
    intro p last hp hlast
    by_cases hne : target = p
    · subst hne
      obtain rfl := Option.some.inj (hself.symm.trans hlast)
      apply hunsigned
    · rw [find?_reach_of_ne h.grounded.rooted htarget hp hne] at hlast
      apply h.unsigned p last hp hlast
  case waiting => apply h.waiting_reach htarget
  case sorted => apply h.sorted_reach htarget
  case ticket =>
    intro p ticket hp hticket
    by_cases hne : target = p
    · subst hne
      rw [h.ticket?_reach_self htarget] at hticket
      obtain rfl := Option.some.inj hticket
      apply h.ticket_le_reach htarget
    · rw [ticket?_reach_of_ne h htarget hp hne] at hticket
      apply (h.ticket p ticket hp hticket).trans lastTicket_le_reach
  case ordered => apply h.ordered.push
  case drawn =>
    intro e he
    rcases Frontier.mem_push.mp he with rfl | he
    · apply h.drawn_reach_self htarget o hunsigned
    · apply h.drawn_reach htarget hunsigned hless he
  case entry =>
    intro p ticket hp hticket
    by_cases hne : target = p
    · subst hne
      rw [h.ticket?_reach_self htarget] at hticket
      obtain rfl := Option.some.inj hticket
      apply Frontier.mem_push.mpr
      left
      rw [h.cost_reach_self htarget]
    · rw [ticket?_reach_of_ne h htarget hp hne] at hticket
      rw [h.cost_reach_of_ne htarget hp hne]
      apply Frontier.mem_push.mpr
      right
      apply h.entry p ticket hp hticket

/-- When both searches try a move they are at the same point again. -/
theorem relax (ht : q.tuning.HasPenalties) (hstart : q.Has q.startPose) (h : s.Simulates q t)
    {label : Label} (ho : q.Has o) (hlabel : s.labels.find? q o = some label)
    (hmove : (target, step) ∈ q.moves o) :
  (Search.relax q o label.cost s (target, step)).Simulates q
    (Scan.relax q o label.cost t (target, step))
  := by
  have hstep : 0.0 ≤ step := by
    obtain ⟨i, -, -, rfl⟩ := Quest.mem_moves.mp hmove
    apply Quest.nonneg_stepCost ht
  rw [relax_eq, Scan.relax, h.labels, Labels.cost_plain]
  simp only
  split_ifs with hle hmem
  · apply h
  · have hreach := h.reach (Quest.isSteady_of_hasPenalties ht) hstart ho hlabel hmove hstep hle
    rwa [if_pos hmem, h.labels] at hreach
  · have hreach := h.reach (Quest.isSteady_of_hasPenalties ht) hstart ho hlabel hmove hstep hle
    rwa [if_neg hmem, h.labels] at hreach

/-! ### Expanding poses -/

/-- When both searches try some moves they are at the same point again. -/
theorem foldl_relax (ht : q.tuning.HasPenalties) (hstart : q.Has q.startPose) {label : Label}
    (ho : q.Has o) (ms : List (Pose × Float32)) (hms : ∀ m ∈ ms, m ∈ q.moves o)
    (h : s.Simulates q t) (hlabel : s.labels.find? q o = some label) :
  (ms.foldl (Search.relax q o label.cost) s).Simulates q
    (ms.foldl (Scan.relax q o label.cost) t)
  := by
  induction ms generalizing s t with
  | nil => apply h
  | cons m ms ih =>
    obtain ⟨target, step⟩ := m
    have hmove := hms (target, step) List.mem_cons_self
    apply ih
    · intro m hm
      apply hms m (List.mem_cons_of_mem _ hm)
    · apply h.relax ht hstart ho hlabel hmove
    · rw [find?_relax_self h.grounded.rooted ho hmove, hlabel]

/-- The searches stay at the same point when both expand the pose that comes out. -/
theorem expand (ht : q.tuning.HasPenalties) (hstart : q.Has q.startPose) (h : s.Simulates q t)
    {e : Entry} {rest : Frontier} (hnext : nextLive? q s.labels s.frontier = some (e, rest)) :
  (Search.expand q (Search.taken q s e rest) e.pose).Simulates q
    (Scan.expand q ⟨t.labels, t.waiting.erase e.pose⟩ e.pose)
  := by
  have hhas := h.grounded.frontier e (mem_of_nextLive? hnext).1
  obtain ⟨found, hfound⟩ := exists_find?_taken hhas hnext
  have htaken := h.taken hstart hnext
  have hcost : (Search.taken q s e rest).labels.cost q e.pose = found.cost :=
    Labels.cost_of_find? hfound
  have hcost' : t.labels.cost q e.pose = found.cost := by
    rw [← hcost, h.labels, Labels.cost_plain, cost_taken hhas hhas]
  rw [Search.expand, Scan.expand, hcost, hcost']
  apply htaken.foldl_relax ht hstart hhas (q.moves e.pose) (fun m hm => hm) hfound

/-- The searches meet the goal at the same pose, with the same labels but for the tickets. -/
theorem run_eq (ht : q.tuning.HasPenalties) (hstart : q.Has q.startPose) (budget : ℕ)
    (h : s.Simulates q t) :
  Scan.run q budget t = (Search.run q budget s).map fun met => (met.1, met.2.plain)
  := by
  induction budget using Nat.strong_induction_on generalizing s t with
  | _ budget ih =>
    cases hwaiting : t.waiting with
    | nil =>
      rw [Scan.run_of_nil hwaiting, Search.run_of_none (h.nextLive?_eq_none_iff.mpr hwaiting)]
      rfl
    | cons first others =>
      cases hnext : nextLive? q s.labels s.frontier with
      | none =>
        rw [h.nextLive?_eq_none_iff.mp hnext] at hwaiting
        contradiction
      | some found =>
        obtain ⟨e, rest⟩ := found
        have hpose := h.pose_eq_leastFrom hnext hwaiting
        rw [Scan.run_of_cons hwaiting, Search.run_of_some hnext, ← hpose]
        split_ifs with hgoal
        · simp only [Option.map_some, Labels.plain_close, h.labels]
        · cases budget with
          | zero => rfl
          | succ budget => apply ih budget (Nat.lt_succ_self budget) (h.expand ht hstart hnext)

end Simulates

/-- Both searches begin at the same point. -/
theorem simulates_initial (hstart : q.Has q.startPose) :
  (initial q).Simulates q (.initial q)
  := by
  have hself := find?_initial_startPose hstart
  -- The start has the first ticket, and no other pose has any.
  have hticket : ∀ {p ticket}, q.Has p → (initial q).labels.ticket? q p = some ticket →
      q.startPose = p ∧ ticket = 0 := by
    intro p ticket hp hdrawn
    obtain ⟨label, hlabel, hdrawn⟩ := exists_label_of_ticket? hdrawn
    obtain ⟨heq, rfl⟩ := eq_of_find?_initial hstart hp hlabel
    exact ⟨heq, (Option.some.inj hdrawn).symm⟩
  have hestimate : IsUnsigned ((0.0 : Float32) + q.remaining q.start).toModel.unpack :=
    isUnsigned_add isUnsigned_zero (nonneg_remaining _)
  constructor
  case grounded => apply grounded_initial hstart
  case labels =>
    unfold initial Scan.initial
    simp only
    rw [Labels.plain_put]
    congr 1
    unfold Labels.plain
    rw [Array.map_replicate]
    rfl
  case unsigned =>
    intro p label hp hlabel
    obtain ⟨-, rfl⟩ := eq_of_find?_initial hstart hp hlabel
    apply isUnsigned_zero
  case waiting =>
    intro p
    change p ∈ [q.startPose] ↔ _
    rw [List.mem_singleton]
    constructor
    · rintro rfl
      exact ⟨hstart, 0, Labels.ticket?_of_find? hself⟩
    · rintro ⟨hp, ticket, hdrawn⟩
      apply (hticket hp hdrawn).1.symm
  case sorted => apply List.pairwise_singleton
  case ticket =>
    intro p ticket hp hdrawn
    rw [(hticket hp hdrawn).2]
    rfl
  case ordered => apply Frontier.Ordered.empty.push
  case drawn =>
    intro e he
    rcases Frontier.mem_push.mp he with rfl | he
    · refine ⟨le_rfl, rfl, hestimate, ?_⟩
      intro _
      change (initial q).estimate q q.startPose ≤ 0.0 + q.remaining q.start
      rw [estimate, Labels.cost_of_find? hself]
      apply Single.le_refl hestimate.isNaN_eq
    · apply absurd he Frontier.not_mem_empty
  case entry =>
    intro p ticket hp hdrawn
    obtain ⟨rfl, rfl⟩ := hticket hp hdrawn
    rw [Labels.cost_of_find? hself]
    apply Frontier.mem_push.mpr (Or.inl rfl)

end Search

namespace Quest

/-- With finite penalties that are not negative, the search with a frontier has the answer of the
search that scans a list. -/
theorem solve?_eq_scan? (q : Quest) (hstart : q.grid.lattice.inBounds q.start = true)
    (ht : q.tuning.HasPenalties) :
  q.solve? = q.scan?
  := by
  have hrun := (Search.simulates_initial hstart).run_eq ht hstart q.tuning.maxExpansions
  unfold solve? scan? meet?
  rw [hrun]
  unfold answer?
  cases Search.run q q.tuning.maxExpansions (Search.initial q) with
  | none => rfl
  | some met => simp only [Option.map_some, Labels.trail?_plain]

/-- Both searches answer alike along the row. -/
theorem solve?_eq_scan?_alongRow :
  alongRow.grid.lattice.inBounds alongRow.start = true ∧ alongRow.tuning.HasPenalties
    ∧ alongRow.solve? = alongRow.scan?
  := by
  refine ⟨by decide, hasPenalties_alongRow, ?_⟩
  apply solve?_eq_scan? alongRow (by decide) hasPenalties_alongRow

end Quest

end DiagramLayout
