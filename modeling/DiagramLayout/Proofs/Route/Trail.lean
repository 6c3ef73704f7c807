import DiagramLayout.Proofs.Route.Run
import DiagramLayout.Proofs.Single.Operations

/-!
# The way back to the start

`Trail` is the way back from a pose by the poses before it, and `trail?` has an answer exactly where
this way ends. A search whose steps never lower a cost keeps its labels grounded: the pose before a
pose costs no more, so no pose is ever put behind itself and every way back ends at the start.
-/

namespace DiagramLayout

open Single

namespace Labels

/-- The cells from the start to a pose, by way of the poses before it. -/
inductive Trail (labels : Labels) (q : Quest) : Pose → List Cell → Prop
  | origin {p : Pose} : labels.parent? q p = none → Trail labels q p [p.cell]
  | step {p before : Pose} {cells : List Cell} : labels.parent? q p = some before →
      Trail labels q before cells → Trail labels q p (cells ++ [p.cell])

variable {labels : Labels} {q : Quest} {p : Pose} {cells : List Cell}

/-- A way back that ends at the start is read off. -/
theorem Trail.trail?_eq (h : Trail labels q p cells) (after : List Cell) :
  labels.trail? q p after = some (cells ++ after)
  := by
  induction h generalizing after with
  | origin hparent =>
    rw [trail?, hparent]
    rfl
  | step hparent _ ih =>
    rw [trail?, hparent]
    simp only
    rw [ih, List.append_assoc]
    rfl

/-- What is read off is a way back that ends at the start. -/
theorem exists_trail_of_trail? {after cells : List Cell}
    (h : labels.trail? q p after = some cells) :
  ∃ front, Trail labels q p front ∧ cells = front ++ after
  := by
  revert h
  apply trail?.partial_correctness labels q
    fun p after cells => ∃ front, Trail labels q p front ∧ cells = front ++ after
  intro rec ih p after cells h
  cases hparent : labels.parent? q p with
  | none =>
    simp only [hparent, Option.some.injEq] at h
    use [p.cell], Trail.origin hparent, h.symm
  | some before =>
    simp only [hparent] at h
    obtain ⟨front, htrail, hcells⟩ := ih before (p.cell :: after) cells h
    use front ++ [p.cell], Trail.step hparent htrail
    rw [hcells, List.append_assoc]
    rfl

/-- The way back from a pose is found exactly where it ends. -/
theorem trail?_eq_some_iff :
  labels.trail? q p [] = some cells ↔ Trail labels q p cells
  := by
  constructor
  · intro h
    obtain ⟨front, htrail, rfl⟩ := exists_trail_of_trail? h
    rwa [List.append_nil]
  · intro h
    rw [h.trail?_eq, List.append_nil]

/-- A way to a pose ends at its cell. -/
theorem Trail.getLast? (h : Trail labels q p cells) :
  cells.getLast? = some p.cell
  := by
  cases h with
  | origin _ => rfl
  | step _ _ => rw [List.getLast?_concat]

/-- One pose is the pose before another. -/
def Leads (labels : Labels) (q : Quest) (p before : Pose) : Prop :=
  labels.parent? q p = some before

/-- A way back that does not pass a pose does not depend on the label of that pose. -/
theorem Trail.of_not_leads {labels' : Labels} {t : Pose} (h : Trail labels q p cells) (hp : q.Has p)
    (hhas : ∀ r o, q.Has r → labels.Leads q r o → q.Has o)
    (hsame : ∀ r, q.Has r → r ≠ t → labels'.parent? q r = labels.parent? q r)
    (ht : ¬Relation.ReflTransGen (labels.Leads q) p t) :
  Trail labels' q p cells
  := by
  induction h with
  | @origin p hparent =>
    apply Trail.origin
    rw [hsame p hp, hparent]
    rintro rfl
    apply ht .refl
  | @step p before cells hparent _ ih =>
    apply Trail.step
    · rw [hsame p hp, hparent]
      rintro rfl
      apply ht .refl
    · apply ih (hhas p before hp hparent)
      intro hlead
      apply ht (.head hparent hlead)

/-- A new pose before one pose leaves every way back with an end, when its own way back ends. -/
theorem Trail.redirect {labels' : Labels} {t o : Pose} {front : List Cell}
    (h : Trail labels q p cells) (hp : q.Has p)
    (hhas : ∀ r o, q.Has r → labels.Leads q r o → q.Has o)
    (hsame : ∀ r, q.Has r → r ≠ t → labels'.parent? q r = labels.parent? q r)
    (ht : labels'.parent? q t = some o) (ho : Trail labels' q o front) :
  ∃ cells', Trail labels' q p cells'
  := by
  induction h with
  | @origin p hparent =>
    by_cases hpt : p = t
    · rw [hpt]
      exact ⟨_, .step ht ho⟩
    · rw [← hsame p hp hpt] at hparent
      exact ⟨_, .origin hparent⟩
  | @step p before cells hparent _ ih =>
    by_cases hpt : p = t
    · rw [hpt]
      exact ⟨_, .step ht ho⟩
    · obtain ⟨cells', htrail⟩ := ih (hhas p before hp hparent)
      rw [← hsame p hp hpt] at hparent
      exact ⟨_, .step hparent htrail⟩

/-! ### Ways back without end -/

/-- A pose has at most one pose before it. -/
theorem Leads.eq {r s : Pose} (hr : labels.Leads q p r) (hs : labels.Leads q p s) :
  r = s
  := by
  apply Option.some.inj (hr.symm.trans hs)

/-- No pose on a way back that ends is put behind itself. -/
theorem Trail.not_circular {r : Pose} (h : Trail labels q p cells)
    (hlead : Relation.ReflTransGen (labels.Leads q) p r) :
  ¬Relation.TransGen (labels.Leads q) r r
  := by
  induction h with
  | @origin p hparent =>
    have hnone : ∀ o, ¬labels.Leads q p o := by
      intro o ho
      rw [Leads, hparent] at ho
      contradiction
    intro hcircle
    rcases Relation.ReflTransGen.cases_head hlead with rfl | ⟨o, ho, -⟩
    · obtain ⟨o, ho, -⟩ := Relation.TransGen.head'_iff.mp hcircle
      apply hnone o ho
    · apply hnone o ho
  | @step p before cells hparent _ ih =>
    intro hcircle
    rcases Relation.ReflTransGen.cases_head hlead with rfl | ⟨o, ho, hrest⟩
    · obtain ⟨o, ho, hback⟩ := Relation.TransGen.head'_iff.mp hcircle
      rw [ho.eq hparent] at hback
      apply ih hback hcircle
    · rw [ho.eq hparent] at hrest
      apply ih hrest hcircle

/-- A pose can be reached from the start when a pose on its way back can. -/
theorem Trail.of_leads {r : Pose} (h : Trail labels q r cells)
    (hlead : Relation.ReflTransGen (labels.Leads q) p r) :
  ∃ cells', Trail labels q p cells'
  := by
  induction hlead using Relation.ReflTransGen.head_induction_on with
  | refl => exact ⟨cells, h⟩
  | head hpo _ ih =>
    obtain ⟨cells', htrail⟩ := ih
    exact ⟨_, .step hpo htrail⟩

/-- The pose `n` poses back. -/
def back (labels : Labels) (q : Quest) : ℕ → Pose → Option Pose
  | 0, p => some p
  | n + 1, p => (labels.parent? q p).bind (back labels q n)

/-- Going back some poses and then more is going back all of them. -/
theorem back_add {m n : ℕ} {r : Pose} (h : labels.back q m p = some r) :
  labels.back q (m + n) p = labels.back q n r
  := by
  induction m generalizing p with
  | zero =>
    obtain rfl := Option.some.inj h
    rw [Nat.zero_add]
  | succ m ih =>
    obtain ⟨o, ho, hr⟩ := Option.bind_eq_some_iff.mp h
    rw [Nat.add_right_comm, back, ho, Option.bind_some, ih hr]

/-- Going back follows the poses before one another. -/
theorem leads_of_back {n : ℕ} {r : Pose} (h : labels.back q n p = some r) :
  Relation.ReflTransGen (labels.Leads q) p r
  := by
  induction n generalizing p with
  | zero =>
    obtain rfl := Option.some.inj h
    apply Relation.ReflTransGen.refl
  | succ n ih =>
    obtain ⟨o, ho, hr⟩ := Option.bind_eq_some_iff.mp h
    have hlead : labels.Leads q p o := ho
    apply Relation.ReflTransGen.head hlead (ih hr)

/-- A pose that is met again on the way back is put behind itself. -/
theorem circular_of_back {n : ℕ} (h : labels.back q (n + 1) p = some p) :
  Relation.TransGen (labels.Leads q) p p
  := by
  obtain ⟨o, ho, hr⟩ := Option.bind_eq_some_iff.mp h
  have hlead : labels.Leads q p o := ho
  apply Relation.TransGen.head' hlead (leads_of_back hr)

/-- A way back that does not end can be followed as far as one likes. -/
theorem exists_back_of_not_trail (h : ¬∃ cells, Trail labels q p cells) (n : ℕ) :
  ∃ r, labels.back q n p = some r
  := by
  induction n generalizing p with
  | zero => exact ⟨p, rfl⟩
  | succ n ih =>
    cases hparent : labels.parent? q p with
    | none => apply absurd ⟨_, Trail.origin hparent⟩ h
    | some o =>
      have ho : ¬∃ cells, Trail labels q o cells := by
        rintro ⟨cells, htrail⟩
        apply h ⟨_, .step hparent htrail⟩
      rw [back, hparent]
      apply ih ho

/-- All poses before other poses. -/
def parents (labels : Labels) : List Pose :=
  labels.toList.filterMap fun found => found.bind Label.parent

/-- The pose before another is among the finitely many that are. -/
theorem mem_parents_of_leads {o : Pose} (h : labels.Leads q p o) :
  o ∈ labels.parents
  := by
  obtain ⟨label, hlabel, hparent⟩ := Option.bind_eq_some_iff.mp h
  rw [find?, Option.join_eq_some_iff] at hlabel
  apply List.mem_filterMap.mpr
  use some label
  constructor
  · apply Array.mem_toList_iff.mpr (Array.mem_of_getElem? hlabel)
  · apply hparent

theorem mem_parents_of_back {n : ℕ} {r : Pose} (h : labels.back q (n + 1) p = some r) :
  r ∈ labels.parents
  := by
  induction n generalizing p with
  | zero =>
    obtain ⟨o, ho, hr⟩ := Option.bind_eq_some_iff.mp h
    obtain rfl := Option.some.inj hr
    apply mem_parents_of_leads ho
  | succ n ih =>
    obtain ⟨o, -, hr⟩ := Option.bind_eq_some_iff.mp h
    apply ih hr

/-- The way back from a pose comes to a pose that is put behind itself. -/
def Circles (labels : Labels) (q : Quest) (p : Pose) : Prop :=
  ∃ r, Relation.ReflTransGen (labels.Leads q) p r ∧ Relation.TransGen (labels.Leads q) r r

/-- A way back without end runs in a circle, for there are not enough poses to go on otherwise. -/
theorem circles_of_not_trail (h : ¬∃ cells, Trail labels q p cells) :
  labels.Circles q p
  := by
  choose pose hpose using exists_back_of_not_trail h
  have hmem : ∀ n, pose (n + 1) ∈ labels.parents.toFinset := by
    intro n
    apply List.mem_toFinset.mpr (mem_parents_of_back (hpose (n + 1)))
  have hlater : ∀ {i j : ℕ}, i < j → pose (i + 1) = pose (j + 1) →
      Relation.TransGen (labels.Leads q) (pose (i + 1)) (pose (i + 1)) := by
    intro i j hij heq
    obtain ⟨k, rfl⟩ := Nat.exists_eq_add_of_lt hij
    have hadd := back_add (n := k + 1) (hpose (i + 1))
    rw [show i + 1 + (k + 1) = i + k + 1 + 1 by omega, hpose, ← heq] at hadd
    apply circular_of_back hadd.symm
  obtain ⟨i, j, hne, heq⟩ := Finite.exists_ne_map_eq_of_infinite
    fun n : ℕ => (⟨pose (n + 1), hmem n⟩ : labels.parents.toFinset)
  simp only [Subtype.mk.injEq] at heq
  rcases hne.lt_or_gt with hlt | hgt
  · use pose (i + 1), leads_of_back (hpose (i + 1))
    apply hlater hlt heq
  · use pose (j + 1), leads_of_back (hpose (j + 1))
    apply hlater hgt heq.symm

/-- A way back ends unless it runs in a circle. -/
theorem circles_iff :
  labels.Circles q p ↔ ¬∃ cells, Trail labels q p cells
  := by
  constructor
  · rintro ⟨r, hlead, hr⟩ ⟨cells, htrail⟩
    apply htrail.not_circular hlead hr
  · apply circles_of_not_trail

/-! ### Rooted labels -/

/-- Labels in which every pose that was reached, the start apart, has the pose before it that it was
reached from. -/
structure Rooted (labels : Labels) (q : Quest) : Prop where
  size : labels.size = q.poseCount
  start : ∃ label, labels.find? q q.startPose = some label ∧ label.parent = none ∧ label.cost = 0.0
  before : ∀ p label, q.Has p → labels.find? q p = some label → p ≠ q.startPose →
    ∃ o reached, q.Has o ∧ label.parent = some o ∧ labels.find? q o = some reached ∧
      ∃ step, (p, step) ∈ q.moves o

namespace Rooted

/-- No pose is before the start. -/
theorem not_startPose_leads (h : Rooted labels q) {o : Pose} :
  ¬labels.Leads q q.startPose o
  := by
  obtain ⟨label, hfind, hparent, -⟩ := h.start
  intro hlead
  rw [Leads, parent?_of_find? hfind, hparent] at hlead
  contradiction

/-- A pose with a pose before it is not the start. -/
theorem ne_startPose_of_parent (h : Rooted labels q) {o : Pose} {label : Label}
    (hfind : labels.find? q p = some label) (hparent : label.parent = some o) :
  p ≠ q.startPose
  := by
  rintro rfl
  apply h.not_startPose_leads
  rw [Leads, parent?_of_find? hfind, hparent]

/-- In rooted labels the pose before a pose is known and has a move to it. -/
theorem exists_of_leads (h : Rooted labels q) {o : Pose} (hp : q.Has p)
    (hlead : labels.Leads q p o) :
  ∃ label reached, labels.find? q p = some label ∧ label.parent = some o ∧ q.Has o ∧
    labels.find? q o = some reached ∧ ∃ step, (p, step) ∈ q.moves o
  := by
  have hne : p ≠ q.startPose := by
    rintro rfl
    apply h.not_startPose_leads hlead
  cases hfind : labels.find? q p with
  | none =>
    rw [Leads, parent?, hfind] at hlead
    contradiction
  | some label =>
    obtain ⟨r, reached, hr, hparent, hreached, hmove⟩ := h.before p label hp hfind hne
    rw [Leads, parent?_of_find? hfind, hparent, Option.some.injEq] at hlead
    subst hlead
    exact ⟨label, reached, rfl, hparent, hr, hreached, hmove⟩

/-- In rooted labels the pose before a pose is on the grid. -/
theorem has_of_leads (h : Rooted labels q) {o : Pose} (hp : q.Has p)
    (hlead : labels.Leads q p o) :
  q.Has o
  := by
  obtain ⟨-, -, -, -, ho, -⟩ := h.exists_of_leads hp hlead
  apply ho

/-- In rooted labels only the start has no pose before it. -/
theorem eq_startPose (h : Rooted labels q) {label : Label} (hp : q.Has p)
    (hfind : labels.find? q p = some label) (hparent : labels.parent? q p = none) :
  p = q.startPose
  := by
  by_contra hne
  obtain ⟨o, -, -, hparent', -⟩ := h.before p label hp hfind hne
  rw [parent?_of_find? hfind, hparent'] at hparent
  contradiction

/-- A way back that ends leads to the start. -/
theorem leads_startPose (h : Rooted labels q) {label : Label} (hp : q.Has p)
    (hfind : labels.find? q p = some label) (htrail : Trail labels q p cells) :
  Relation.ReflTransGen (labels.Leads q) p q.startPose
  := by
  induction htrail generalizing label with
  | @origin p hparent =>
    rw [h.eq_startPose hp hfind hparent]
  | @step p o cells hparent _ ih =>
    have hlead : labels.Leads q p o := hparent
    obtain ⟨-, reached, -, -, ho, hreached, -⟩ := h.exists_of_leads hp hlead
    apply Relation.ReflTransGen.head hlead (ih ho hreached)

/-- The way back from a pose leads to the start exactly when it ends. -/
theorem leads_startPose_iff (h : Rooted labels q) {label : Label} (hp : q.Has p)
    (hfind : labels.find? q p = some label) :
  Relation.ReflTransGen (labels.Leads q) p q.startPose ↔ ∃ cells, Trail labels q p cells
  := by
  constructor
  · intro hlead
    obtain ⟨found, hfound, hparent, -⟩ := h.start
    rw [← parent?_of_find? hfound] at hparent
    apply (Trail.origin hparent).of_leads hlead
  · rintro ⟨cells, htrail⟩
    apply h.leads_startPose hp hfind htrail

/-- A new label of a pose that was reached from a known pose keeps the labels rooted. -/
theorem put (h : Rooted labels q) {o t : Pose} {step cost : Float32} {reached : Label}
    (hstart : q.Has q.startPose) (ho : q.Has o) (hreached : labels.find? q o = some reached)
    (hmove : (t, step) ∈ q.moves o) (ticket : Option ℕ) :
  Rooted (labels.put q t ⟨cost, some o, ticket⟩) q
  := by
  have ht := Quest.has_of_mem_moves ho hmove
  constructor
  case size => rw [size_put, h.size]
  case start =>
    rw [find?_put_of_ne h.size ht hstart (Quest.ne_startPose_of_mem_moves hmove)]
    apply h.start
  case before =>
    intro p label hp hfind hpstart
    rcases eq_or_of_find?_put h.size ht hp hfind with ⟨rfl, rfl⟩ | ⟨-, hfind⟩
    · refine ⟨o, reached, ho, rfl, ?_, step, hmove⟩
      rw [find?_put_of_ne h.size ht ho (Quest.ne_of_mem_moves ho hmove), hreached]
    · obtain ⟨r, found, hr, hparent, hfound, hmove'⟩ := h.before p label hp hfind hpstart
      by_cases hrt : t = r
      · subst hrt
        exact ⟨t, _, hr, hparent, find?_put_self h.size ht, hmove'⟩
      · refine ⟨r, found, hr, hparent, ?_, hmove'⟩
        rw [find?_put_of_ne h.size ht hr hrt, hfound]

end Rooted

/-! ### Grounded labels -/

/-- Rooted labels in which every pose was reached from one that costs no more, and every way back ends
at the start. -/
structure Grounded (labels : Labels) (q : Quest) : Prop extends Rooted labels q where
  above : ∀ p label, q.Has p → labels.find? q p = some label → -infinite < label.cost
  lower : ∀ p o label reached, q.Has p → labels.find? q p = some label → label.parent = some o →
    labels.find? q o = some reached → o ≠ q.startPose → reached.cost ≤ label.cost
  trail : ∀ p label, q.Has p → labels.find? q p = some label → ∃ cells, Trail labels q p cells

namespace Grounded

/-- In grounded labels all costs are numbers, also those of poses that are not known. -/
theorem isNumber_cost (h : Grounded labels q) (hp : q.Has p) :
  IsNumber (labels.cost q p)
  := by
  cases hfind : labels.find? q p with
  | none =>
    rw [cost, hfind]
    rfl
  | some label =>
    rw [cost_of_find? hfind]
    apply (infinite_lt_iff.mp (h.above p label hp hfind)).1

/-- The poses on the way back cost no more, the start apart. -/
theorem cost_le_of_leads (h : Grounded labels q) {t : Pose} {label : Label}
    (hlead : Relation.ReflTransGen (labels.Leads q) p t) (ht : t ≠ q.startPose) (hp : q.Has p)
    (hfind : labels.find? q p = some label) :
  ∃ reached, labels.find? q t = some reached ∧ reached.cost ≤ label.cost
  := by
  induction hlead using Relation.ReflTransGen.head_induction_on generalizing label with
  | refl =>
    use label, hfind
    apply Single.le_refl (infinite_lt_iff.mp (h.above t label hp hfind)).1
  | @head p o hpo hlead ih =>
    obtain ⟨found, reached, hfound, hparent, ho, hreached, -⟩ := h.exists_of_leads hp hpo
    obtain rfl : found = label := Option.some.inj (hfound.symm.trans hfind)
    obtain ⟨last, hlast, hle⟩ := ih ho hreached
    use last, hlast
    apply Single.le_trans hle
    apply h.lower p o found reached hp hfind hparent hreached
    rintro rfl
    rcases Relation.ReflTransGen.cases_head hlead with heq | ⟨r, hr, -⟩
    · apply ht heq.symm
    · apply h.not_startPose_leads hr

end Grounded

end Labels

/-- No step lowers a cost, except maybe the first, which does not lower it without bound. -/
structure Quest.IsSteady (q : Quest) : Prop where
  first : ∀ m ∈ q.moves q.startPose, -infinite < m.2
  later : ∀ p, q.Has p → p ≠ q.startPose → ∀ m ∈ q.moves p, 0.0 ≤ m.2

namespace Labels.Grounded

variable {labels : Labels} {q : Quest} {o t : Pose} {step : Float32} {reached : Label}

/-- The cost over a pose is more than minus infinity, and no less than the cost of the pose unless
that is the start. -/
theorem infinite_lt_add (hq : q.IsSteady) (h : Grounded labels q) (ho : q.Has o)
    (hreached : labels.find? q o = some reached) (hmove : (t, step) ∈ q.moves o) :
  -infinite < reached.cost + step ∧ (o ≠ q.startPose → reached.cost ≤ reached.cost + step)
  := by
  have habove := h.above o reached ho hreached
  have hlater : o ≠ q.startPose → reached.cost ≤ reached.cost + step := by
    intro hne
    apply le_add habove (hq.later o ho hne _ hmove)
  constructor
  · by_cases hstart : o = q.startPose
    · subst hstart
      obtain ⟨label, hfind, -, hzero⟩ := h.start
      obtain rfl : label = reached := Option.some.inj (hfind.symm.trans hreached)
      rw [hzero]
      apply zero_add_infinite_lt (hq.first _ hmove)
    · have hle := le_iff.mp (hlater hstart)
      have hlow := infinite_lt_iff.mp habove
      apply infinite_lt_iff.mpr
      exact ⟨hle.2.1, hlow.2.trans_le hle.2.2⟩
  · apply hlater

/-- A pose that gets cheaper does not lie on the way back from the pose that it is reached from. -/
theorem not_leads (hq : q.IsSteady) (h : Grounded labels q) (ho : q.Has o)
    (hreached : labels.find? q o = some reached) (hmove : (t, step) ∈ q.moves o)
    (hless : ¬labels.cost q t ≤ reached.cost + step) :
  ¬Relation.ReflTransGen (labels.Leads q) o t
  := by
  intro hlead
  have ht := Quest.ne_startPose_of_mem_moves hmove
  by_cases hstart : o = q.startPose
  · subst hstart
    rcases Relation.ReflTransGen.cases_head hlead with heq | ⟨r, hr, -⟩
    · apply ht heq.symm
    · apply h.not_startPose_leads hr
  · obtain ⟨label, hlabel, hle⟩ := h.cost_le_of_leads hlead ht ho hreached
    apply hless
    rw [cost_of_find? hlabel]
    apply Single.le_trans hle
    apply (h.infinite_lt_add hq ho hreached hmove).2 hstart

/-- Where a pose gets cheaper, no pose costs less than the one before it, the start apart. -/
theorem cost_le_put (hq : q.IsSteady) (h : Grounded labels q) (ho : q.Has o)
    (hreached : labels.find? q o = some reached) (hmove : (t, step) ∈ q.moves o)
    (hless : ¬labels.cost q t ≤ reached.cost + step) {ticket : Option ℕ} {p r : Pose}
    {label found : Label} (hp : q.Has p)
    (hfind : (labels.put q t ⟨reached.cost + step, some o, ticket⟩).find? q p = some label)
    (hparent : label.parent = some r)
    (hfound : (labels.put q t ⟨reached.cost + step, some o, ticket⟩).find? q r = some found)
    (hr : r ≠ q.startPose) :
  found.cost ≤ label.cost
  := by
  have ht := Quest.has_of_mem_moves ho hmove
  obtain ⟨habove, hlater⟩ := h.infinite_lt_add hq ho hreached hmove
  rcases eq_or_of_find?_put h.size ht hp hfind with ⟨rfl, rfl⟩ | ⟨-, hfind⟩
  · obtain rfl := Option.some.inj hparent
    rw [find?_put_of_ne h.size ht ho (Quest.ne_of_mem_moves ho hmove), hreached,
      Option.some.injEq] at hfound
    rw [← hfound]
    apply hlater hr
  · obtain ⟨s, old, hs, hparent', hold, -⟩ :=
      h.before p label hp hfind (h.ne_startPose_of_parent hfind hparent)
    obtain rfl : s = r := Option.some.inj (hparent'.symm.trans hparent)
    have hle := h.lower p s label old hp hfind hparent hold hr
    rcases eq_or_of_find?_put h.size ht hs hfound with ⟨rfl, rfl⟩ | ⟨-, hfound⟩
    · -- The pose before `p` is the one that got cheaper.
      rw [cost_of_find? hold] at hless
      apply Single.le_trans (Single.le_of_lt (lt_of_not_le _ _ hless)) hle
      · apply (infinite_lt_iff.mp (h.above s old hs hold)).1
      · apply (infinite_lt_iff.mp habove).1
    · obtain rfl := Option.some.inj (hold.symm.trans hfound)
      apply hle

/-- Where a pose gets cheaper, every way back still ends. -/
theorem exists_trail_put (hq : q.IsSteady) (h : Grounded labels q) (ho : q.Has o)
    (hreached : labels.find? q o = some reached) (hmove : (t, step) ∈ q.moves o)
    (hless : ¬labels.cost q t ≤ reached.cost + step) {ticket : Option ℕ} {p : Pose} {label : Label}
    (hp : q.Has p)
    (hfind : (labels.put q t ⟨reached.cost + step, some o, ticket⟩).find? q p = some label) :
  ∃ cells, Trail (labels.put q t ⟨reached.cost + step, some o, ticket⟩) q p cells
  := by
  have ht := Quest.has_of_mem_moves ho hmove
  have hself : (labels.put q t ⟨reached.cost + step, some o, ticket⟩).parent? q t = some o := by
    apply parent?_of_find? (find?_put_self h.size ht)
  have hsame : ∀ r, q.Has r → r ≠ t →
      (labels.put q t ⟨reached.cost + step, some o, ticket⟩).parent? q r = labels.parent? q r := by
    intro r hr hne
    rw [parent?, find?_put_of_ne h.size ht hr hne.symm, parent?]
  have hhas : ∀ r s, q.Has r → labels.Leads q r s → q.Has s := by
    intro r s hr hlead
    apply h.has_of_leads hr hlead
  obtain ⟨front, hfront⟩ := h.trail o reached ho hreached
  have hfront' : Trail (labels.put q t ⟨reached.cost + step, some o, ticket⟩) q o front := by
    apply hfront.of_not_leads ho hhas hsame
    apply h.not_leads hq ho hreached hmove hless
  rcases eq_or_of_find?_put h.size ht hp hfind with ⟨rfl, -⟩ | ⟨-, hfind⟩
  · exact ⟨_, .step hself hfront'⟩
  · obtain ⟨cells, htrail⟩ := h.trail p label hp hfind
    apply htrail.redirect hp hhas hsame hself hfront'

/-- A pose that gets cheaper keeps the labels grounded. -/
theorem put (hq : q.IsSteady) (hstart : q.Has q.startPose) (h : Grounded labels q) (ho : q.Has o)
    (hreached : labels.find? q o = some reached) (hmove : (t, step) ∈ q.moves o)
    (hless : ¬labels.cost q t ≤ reached.cost + step) (ticket : Option ℕ) :
  Grounded (labels.put q t ⟨reached.cost + step, some o, ticket⟩) q
  := by
  constructor
  case toRooted => apply h.toRooted.put hstart ho hreached hmove
  case above =>
    intro p label hp hfind
    rcases eq_or_of_find?_put h.size (Quest.has_of_mem_moves ho hmove) hp hfind
      with ⟨rfl, rfl⟩ | ⟨-, hfind⟩
    · apply (h.infinite_lt_add hq ho hreached hmove).1
    · apply h.above p label hp hfind
  case lower =>
    intro p r label found hp hfind hparent hfound hr
    apply h.cost_le_put hq ho hreached hmove hless hp hfind hparent hfound hr
  case trail =>
    intro p label hp hfind
    apply h.exists_trail_put hq ho hreached hmove hless hp hfind

end Labels.Grounded

/-- A way back does not depend on which poses wait. -/
theorem Labels.Trail.close {labels : Labels} {q : Quest} {p r : Pose} {cells : List Cell}
    (h : labels.Trail q p cells) (hp : q.Has p) (hr : q.Has r)
    (hhas : ∀ r o, q.Has r → labels.Leads q r o → q.Has o) :
  (labels.close q r).Trail q p cells
  := by
  induction h with
  | origin hparent =>
    apply Labels.Trail.origin
    rw [Labels.parent?_close hr hp, hparent]
  | step hparent _ ih =>
    apply Labels.Trail.step
    · rw [Labels.parent?_close hr hp, hparent]
    · apply ih (hhas _ _ hp hparent)

/-- Closing a pose invents no label. -/
theorem Labels.exists_of_find?_close {labels : Labels} {q : Quest} {p r : Pose} {label : Label}
    (hp : q.Has p) (hr : q.Has r) (h : (labels.close q r).find? q p = some label) :
  ∃ found, labels.find? q p = some found ∧ found.cost = label.cost ∧ found.parent = label.parent
  := by
  rw [Labels.find?_close hr hp, Option.map_eq_some_iff] at h
  obtain ⟨found, hfound, rfl⟩ := h
  exact ⟨found, hfound, rfl, rfl⟩

/-- Closing a pose loses no label. -/
theorem Labels.exists_find?_close {labels : Labels} {q : Quest} {p r : Pose} {label : Label}
    (hp : q.Has p) (hr : q.Has r) (h : labels.find? q p = some label) :
  ∃ found, (labels.close q r).find? q p = some found ∧ found.cost = label.cost
    ∧ found.parent = label.parent
  := by
  rw [Labels.find?_close hr hp, h]
  exact ⟨_, rfl, rfl, rfl⟩

/-- Closing a pose keeps labels rooted. -/
theorem Labels.Rooted.close {labels : Labels} {q : Quest} {r : Pose} (h : labels.Rooted q)
    (hstart : q.Has q.startPose) (hr : q.Has r) :
  (labels.close q r).Rooted q
  := by
  constructor
  case size => rw [Labels.size_close, h.size]
  case start =>
    obtain ⟨label, hfind, hparent, hcost⟩ := h.start
    obtain ⟨found, hfound, hcost', hparent'⟩ := Labels.exists_find?_close hstart hr hfind
    use found, hfound
    rw [hcost', hparent']
    exact ⟨hparent, hcost⟩
  case before =>
    intro p label hp hfind hne
    obtain ⟨found, hfound, -, hparent⟩ := Labels.exists_of_find?_close hp hr hfind
    obtain ⟨o, reached, ho, hparent', hreached, hmove⟩ := h.before p found hp hfound hne
    obtain ⟨reached', hreached', -⟩ := Labels.exists_find?_close ho hr hreached
    refine ⟨o, reached', ho, ?_, hreached', hmove⟩
    rw [← hparent, hparent']

/-- Closing a pose keeps labels grounded. -/
theorem Labels.Grounded.close {labels : Labels} {q : Quest} {r : Pose} (h : labels.Grounded q)
    (hstart : q.Has q.startPose) (hr : q.Has r) :
  (labels.close q r).Grounded q
  := by
  constructor
  case toRooted => apply h.toRooted.close hstart hr
  case above =>
    intro p label hp hfind
    obtain ⟨found, hfound, hcost, -⟩ := Labels.exists_of_find?_close hp hr hfind
    rw [← hcost]
    apply h.above p found hp hfound
  case lower =>
    intro p o label reached hp hfind hparent hreached ho
    obtain ⟨found, hfound, hcost, hparent'⟩ := Labels.exists_of_find?_close hp hr hfind
    rw [← hparent'] at hparent
    have hlead : labels.Leads q p o := by rw [Labels.Leads, Labels.parent?_of_find? hfound, hparent]
    obtain ⟨found', hfound', hcost', -⟩ :=
      Labels.exists_of_find?_close (h.has_of_leads hp hlead) hr hreached
    rw [← hcost, ← hcost']
    apply h.lower p o found found' hp hfound hparent hfound' ho
  case trail =>
    intro p label hp hfind
    obtain ⟨found, hfound, -⟩ := Labels.exists_of_find?_close hp hr hfind
    obtain ⟨cells, htrail⟩ := h.trail p found hp hfound
    use cells
    apply htrail.close hp hr
    intro s o hs hlead
    apply h.has_of_leads hs hlead

end DiagramLayout
