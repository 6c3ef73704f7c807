import DiagramLayout.Proofs.Single.Whole
import DiagramLayout.Scene.Lane

/-!
# The lanes that edges take

The lane of an edge depends on the edges before it between its nodes: it is the next one behind those of
its direction, on the side that belongs to the direction in which the nodes were first connected or on
the opposite one.
-/

namespace DiagramLayout.Lanes

open Single

variable {lanes : Lanes} {past : List (String × String)} {source target : String}

/-- The lanes behind edges in some directions, given in their order. -/
def after (past : List (String × String)) : Lanes :=
  past.foldl (fun lanes r => lanes.take r.1 r.2) []

/-- Whether the direction is the one in which its nodes are first connected, at the latest by the next
edge. -/
def leads (past : List (String × String)) (source target : String) : Bool :=
  (past ++ [(source, target)]).find? (fun r => r == (source, target) || r == (target, source))
    == some (source, target)

/-- The sign of the side on which the next edge in the direction lies. -/
def sideSign (past : List (String × String)) (source target : String) : ℤ :=
  if leads past source target then 1 else -1

/-- The lanes of the direction behind edges in some directions. -/
def laneAfter (past : List (String × String)) (source target : String) : Lane :=
  ⟨source, target, past.count (source, target), if leads past source target then 1.0 else -1.0⟩

/-! ### Taking a lane -/

theorem ends_direction (lanes : Lanes) (source target : String) :
  (lanes.direction source target).source = source ∧ (lanes.direction source target).target = target
  := by
  rw [direction]
  cases hfind : lanes.find? source target with
  | none =>
    rw [Option.getD_none, opened]
    split
    all_goals exact ⟨rfl, rfl⟩
  | some lane =>
    have hends := List.find?_some hfind
    rw [Bool.and_eq_true, beq_iff_eq, beq_iff_eq] at hends
    exact hends

/-- Taking a lane counts it for its direction and leaves the others. -/
theorem find?_take (lanes : Lanes) (source target source' target' : String) :
  (lanes.take source target).find? source' target'
    = if (source', target') = (source, target) then
        some { lanes.direction source target with taken := (lanes.direction source target).taken + 1 }
      else lanes.find? source' target'
  := by
  obtain ⟨hsource, htarget⟩ := ends_direction lanes source target
  rw [find?, take]
  split_ifs with heq
  · obtain ⟨rfl, rfl⟩ := Prod.mk.inj heq
    rw [List.find?_cons_of_pos]
    dsimp only
    rw [hsource, htarget, beq_self_eq_true, beq_self_eq_true]
    rfl
  · have hne : ¬(source == source' && target == target') = true := by
      rw [Bool.and_eq_true, beq_iff_eq, beq_iff_eq]
      rintro ⟨rfl, rfl⟩
      exact heq rfl
    rw [List.find?_cons_of_neg, List.find?_filter, find?]
    · congr 1
      funext l
      -- An entry of the one direction is none of the other.
      by_cases hl : (l.source == source' && l.target == target') = true
      · have hl' : (l.source == source && l.target == target) = false := by
          rw [Bool.eq_false_iff]
          intro h
          rw [Bool.and_eq_true, beq_iff_eq, beq_iff_eq] at h hl
          rw [h.1, h.2] at hl
          exact heq (by rw [hl.1, hl.2])
        rw [hl, hl']
        rfl
      · rw [Bool.not_eq_true] at hl
        rw [hl]
        simp
    · dsimp only
      rw [hsource, htarget]
      exact hne

/-! ### The history of a direction -/

/-- The first of two directions that is asked for stays the first. -/
theorem leads_append (h : (source, target) ∈ past) (others : List (String × String)) :
  leads (past ++ others) source target = leads past source target
  := by
  have hsome : (past.find? fun r => r == (source, target) || r == (target, source)).isSome = true := by
    rw [List.find?_isSome]
    exact ⟨_, h, by simp⟩
  obtain ⟨r, hr⟩ := Option.isSome_iff_exists.mp hsome
  rw [leads, leads, List.append_assoc, List.find?_append, hr, Option.some_or, List.find?_append, hr,
    Option.some_or]

/-- The next edge in a direction does not change which direction leads. -/
theorem leads_concat (past : List (String × String)) (source target : String) :
  leads (past ++ [(source, target)]) source target = leads past source target
  := by
  rw [leads, leads, List.append_assoc, List.find?_append, List.find?_append, List.find?_append]
  cases past.find? fun r => r == (source, target) || r == (target, source) with
  | none => simp
  | some r => rfl

/-- Where the direction is new and the opposite one is not, the opposite one leads. -/
theorem leads_opposite (h : (source, target) ∉ past) (hopposite : (target, source) ∈ past) :
  leads past source target = false ∧ leads past target source = true
  := by
  have hfind : ∀ p : String × String → Bool, (∀ r ∈ past, p r = (r == (target, source))) →
      past.find? p = some (target, source) := by
    intro p hp
    obtain ⟨r, hr⟩ := Option.isSome_iff_exists.mp
      (List.find?_isSome.mpr ⟨_, hopposite, (hp _ hopposite).trans (beq_self_eq_true _)⟩)
    have heq := List.find?_some hr
    rw [hp r (List.mem_of_find?_eq_some hr), beq_iff_eq] at heq
    rw [hr, heq]
  have hnot : ∀ r ∈ past, (r == (source, target)) = false := by
    intro r hr
    rw [beq_eq_false_iff_ne]
    rintro rfl
    exact h hr
  constructor
  · rw [leads, List.find?_append, hfind _ fun r hr => by rw [hnot r hr, Bool.false_or], Option.some_or,
      beq_eq_false_iff_ne]
    intro heq
    apply h
    rw [← Option.some.inj heq]
    exact hopposite
  · rw [leads, List.find?_append, hfind _ fun r hr => by rw [hnot r hr, Bool.or_false], Option.some_or,
      beq_self_eq_true]

/-- Where the nodes are not yet connected, the next direction leads. -/
theorem leads_of_not_mem (h : (source, target) ∉ past) (hopposite : (target, source) ∉ past) :
  leads past source target = true
  := by
  have hnone : past.find? (fun r => r == (source, target) || r == (target, source)) = none := by
    rw [List.find?_eq_none]
    intro r hr
    rw [Bool.or_eq_true, beq_iff_eq, beq_iff_eq]
    rintro (rfl | rfl)
    · exact h hr
    · exact hopposite hr
  rw [leads, List.find?_append, hnone, Option.none_or, List.find?_singleton]
  simp

theorem direction_of_find? (h : ∀ source target, lanes.find? source target
    = if (source, target) ∈ past then some (laneAfter past source target) else none) :
  lanes.direction source target = laneAfter past source target
  := by
  rw [direction, h]
  split_ifs with hmem
  · rw [Option.getD_some]
  · rw [Option.getD_none, opened, h target source]
    have hcount : past.count (source, target) = 0 := List.count_eq_zero.mpr hmem
    by_cases hopposite : (target, source) ∈ past
    · obtain ⟨hleads, hleads'⟩ := leads_opposite hmem hopposite
      rw [if_pos hopposite]
      simp only [laneAfter, hcount, hleads, hleads', if_true, Bool.false_eq_true, if_false]
    · rw [if_neg hopposite]
      simp only [laneAfter, hcount, leads_of_not_mem hmem hopposite, if_true]

/-- After some requests, a direction has the lane that its own requests and those of its opposite
give. -/
theorem find?_after (past : List (String × String)) (source target : String) :
  (after past).find? source target
    = if (source, target) ∈ past then some (laneAfter past source target) else none
  := by
  induction past using List.reverseRecOn generalizing source target with
  | nil => rfl
  | append_singleton past r ih =>
    obtain ⟨source', target'⟩ := r
    rw [after, List.foldl_append, ← after, List.foldl_cons, List.foldl_nil, find?_take,
      direction_of_find? ih, ih]
    by_cases heq : (source, target) = (source', target')
    · obtain ⟨rfl, rfl⟩ := Prod.mk.inj heq
      rw [if_pos rfl, if_pos (List.mem_append_right _ (List.mem_singleton_self _))]
      simp only [laneAfter, leads_concat, List.count_append, List.count_singleton_self]
    · have hmem : (source, target) ∈ past ++ [(source', target')] ↔ (source, target) ∈ past := by
        rw [List.mem_append, List.mem_singleton, or_iff_left heq]
      have hcount : (past ++ [(source', target')]).count (source, target)
          = past.count (source, target) := by
        have hzero : [(source', target')].count (source, target) = 0 :=
          List.count_eq_zero.mpr fun h => heq (List.mem_singleton.mp h)
        rw [List.count_append, hzero, Nat.add_zero]
      rw [if_neg heq]
      simp only [hmem]
      split_ifs with hpast
      · simp only [laneAfter, leads_append hpast, hcount]
      · rfl

/-- As many lanes of a direction are taken as there were edges in it, and they lie on the side of the
direction in which the nodes were first connected or on the other one. -/
theorem direction_after (past : List (String × String)) (source target : String) :
  (after past).direction source target = laneAfter past source target
  := direction_of_find? (find?_after past)

/-- A side is one of two signs. -/
theorem abs_sideSign (past : List (String × String)) (source target : String) :
  |sideSign past source target| = 1
  := by
  rw [sideSign]
  split_ifs
  all_goals rfl

/-- An offset is computed exactly when its parts are whole and within bounds. -/
theorem isWhole_offset {base step : Float32} {a b : ℤ} (hbase : IsWhole base a) (hstep : IsWhole step b)
    (hcount : past.count (source, target) ≤ 2 ^ 24)
    (hb : |past.count (source, target) * b| ≤ 2 ^ 24)
    (hab : |a + past.count (source, target) * b| ≤ 2 ^ 24) :
  IsWhole ((after past).offset source target base step)
    (sideSign past source target * (a + past.count (source, target) * b))
  := by
  have hsign : IsWhole (laneAfter past source target).sign (sideSign past source target) := by
    rw [laneAfter, sideSign]
    dsimp only
    split_ifs
    · exact isWhole_one
    · exact isWhole_one.neg
  have hplace := isWhole_place hbase hstep _ hcount hb hab
  rw [offset, direction_after]
  apply hsign.mul hplace
  rw [abs_mul, abs_sideSign, one_mul]
  exact hab

/-- The second edge in a direction lies one step farther out, and the edges back lie on the other
side. -/
example :
  sideSign [("A", "B"), ("B", "A")] "A" "B" = 1 ∧ sideSign [("A", "B"), ("B", "A")] "B" "A" = -1
    ∧ (laneAfter [("A", "B"), ("B", "A")] "A" "B").taken = 1
  := by
  decide

end DiagramLayout.Lanes
