import DiagramLayout.Route.Search
import Mathlib.Tactic

/-!
# Cells, poses and labels

The poses on the cells of a lattice have different places in the array of labels, so the labels of a
search are a function of the pose: a new label for one pose leaves those of all other poses alone.
-/

namespace DiagramLayout

/-- Two cells that are one step apart, along a column or along a row. -/
def Cell.IsNeighbour (c d : Cell) : Prop :=
  c.col = d.col ∧ (c.row + 1 = d.row ∨ d.row + 1 = c.row)
    ∨ c.row = d.row ∧ (c.col + 1 = d.col ∨ d.col + 1 = c.col)

namespace Lattice

variable {l : Lattice} {c d : Cell}

/-- A cell is in bounds when its column and its row are. -/
theorem inBounds_iff :
  l.inBounds c = true ↔ c.col < l.cols ∧ c.row < l.rows
  := by
  simp [inBounds]

/-- The index of a cell in bounds is in the array. -/
theorem index_lt (hc : l.inBounds c = true) :
  l.index c < l.size
  := by
  obtain ⟨hcol, hrow⟩ := inBounds_iff.mp hc
  calc c.row * l.cols + c.col < (c.row + 1) * l.cols := by
        rw [Nat.add_mul]
        omega
    _ ≤ l.rows * l.cols := Nat.mul_le_mul_right l.cols hrow
    _ = l.size := Nat.mul_comm l.rows l.cols

/-- Different cells have different places. -/
theorem index_inj (hc : l.inBounds c = true) (hd : l.inBounds d = true) :
  l.index c = l.index d ↔ c = d
  := by
  obtain ⟨hcol, -⟩ := inBounds_iff.mp hc
  obtain ⟨hcol', -⟩ := inBounds_iff.mp hd
  constructor
  · intro h
    unfold index at h
    have hpos : 0 < l.cols := by omega
    have hrow : c.row = d.row := by
      have hdiv := congrArg (· / l.cols) h
      simpa [Nat.mul_comm _ l.cols, Nat.mul_add_div hpos, Nat.div_eq_of_lt hcol,
        Nat.div_eq_of_lt hcol'] using hdiv
    have hcell : c.col = d.col := by
      rw [hrow] at h
      omega
    cases c
    cases d
    simp only at hrow hcell
    rw [hrow, hcell]
  · intro h
    rw [h]

/-- A step does not leave the bounds. -/
theorem inBounds_of_step? {h : Heading} (hc : l.inBounds c = true) (hd : l.step? c h = some d) :
  l.inBounds d = true
  := by
  rw [inBounds_iff] at hc ⊢
  cases h
  all_goals
    simp only [step?, Option.ite_none_right_eq_some, Option.some.injEq] at hd
    obtain ⟨hlt, rfl⟩ := hd
    simp only
    omega

/-- The steps from a cell lead to its neighbours on the lattice. -/
theorem exists_step?_iff (hc : l.inBounds c = true) :
  (∃ h, l.step? c h = some d) ↔ c.IsNeighbour d ∧ l.inBounds d = true
  := by
  constructor
  · rintro ⟨h, hd⟩
    refine ⟨?_, inBounds_of_step? hc hd⟩
    cases h
    all_goals
      simp only [step?, Option.ite_none_right_eq_some, Option.some.injEq] at hd
      obtain ⟨hlt, rfl⟩ := hd
      rw [Cell.IsNeighbour]
      dsimp only
      omega
  · intro ⟨hnear, hd⟩
    obtain ⟨dcol, drow⟩ := d
    rw [inBounds_iff] at hd
    simp only [Cell.IsNeighbour] at hnear hd
    rcases hnear with ⟨hcol, hdown | hup⟩ | ⟨hrow, hright | hleft⟩
    · use .down
      rw [step?, if_pos (by omega), hcol, hdown]
    · use .up
      rw [step?, if_pos (by omega), hcol, ← hup]
      rfl
    · use .right
      rw [step?, if_pos (by omega), hrow, hright]
    · use .left
      rw [step?, if_pos (by omega), hrow, ← hleft]
      rfl

end Lattice

/-- A step is open when it leads to a cell that is not blocked. -/
theorem Grid.open?_eq_some {g : Grid} {c d : Cell} {h : Heading} :
  g.open? c h = some d ↔ g.lattice.step? c h = some d ∧ g.isBlocked d = false
  := by
  simp [open?, Option.filter_eq_some_iff]

theorem Pose.slot_lt (p : Pose) :
  p.slot < perCell
  := by
  obtain ⟨c, h⟩ := p
  rcases h with _ | h
  · exact Nat.lt_succ_self 4
  · cases h
    all_goals norm_num [slot, Heading.slot, perCell]

/-- Poses in one slot have one heading. -/
theorem Pose.heading_eq_of_slot {p r : Pose} (h : p.slot = r.slot) :
  p.heading = r.heading
  := by
  obtain ⟨c, i⟩ := p
  obtain ⟨d, j⟩ := r
  revert h
  rcases i with _ | i
  all_goals rcases j with _ | j
  · simp [slot]
  · cases j
    all_goals simp [slot, Heading.slot]
  · cases i
    all_goals simp [slot, Heading.slot]
  · cases i
    all_goals
      cases j
      all_goals simp [slot, Heading.slot]

namespace Quest

/-- The pose stands on the grid. -/
def Has (q : Quest) (p : Pose) : Prop :=
  q.grid.lattice.inBounds p.cell = true

variable {q : Quest} {p r : Pose}

/-- The index of a pose on the grid is in the array. -/
theorem index_lt (hp : q.Has p) :
  q.index p < q.poseCount
  := by
  have hcell := Lattice.index_lt hp
  have hslot := p.slot_lt
  rw [index, poseCount]
  simp only [Pose.perCell] at hslot ⊢
  omega

/-- Different poses have different places. -/
theorem index_inj (hp : q.Has p) (hr : q.Has r) :
  q.index p = q.index r ↔ p = r
  := by
  constructor
  · intro h
    have hslot := p.slot_lt
    have hslot' := r.slot_lt
    unfold index at h
    simp only [Pose.perCell] at h hslot hslot'
    have hcell : p.cell = r.cell := by
      apply (Lattice.index_inj hp hr).mp
      omega
    have hheading : p.heading = r.heading := by
      apply Pose.heading_eq_of_slot
      omega
    cases p
    cases r
    simp only at hcell hheading
    rw [hcell, hheading]
  · intro h
    rw [h]

/-! ### Moves -/

/-- The moves from a pose are the open steps with what they cost. -/
theorem mem_moves {target : Pose} {step : Float32} :
  (target, step) ∈ q.moves p ↔ ∃ h, q.grid.open? p.cell h = some target.cell ∧
    target.heading = some h ∧ step = q.stepCost p h target.cell
  := by
  obtain ⟨c, i⟩ := target
  simp only [moves, List.mem_filterMap, Option.map_eq_some_iff, Prod.mk.injEq, Pose.mk.injEq]
  constructor
  · rintro ⟨h, -, d, hd, ⟨rfl, rfl⟩, rfl⟩
    use h
  · rintro ⟨h, hd, rfl, rfl⟩
    refine ⟨h, ?_, c, hd, ⟨rfl, rfl⟩, rfl⟩
    cases h
    all_goals simp [Heading.all]

variable {target : Pose} {step : Float32}

/-- A move does not leave the grid. -/
theorem has_of_mem_moves (hp : q.Has p) (h : (target, step) ∈ q.moves p) :
  q.Has target
  := by
  obtain ⟨i, hopen, -, -⟩ := mem_moves.mp h
  apply Lattice.inBounds_of_step? hp (Grid.open?_eq_some.mp hopen).1

theorem heading_ne_none_of_mem_moves (h : (target, step) ∈ q.moves p) :
  target.heading ≠ none
  := by
  obtain ⟨i, -, hheading, -⟩ := mem_moves.mp h
  rw [hheading]
  apply Option.some_ne_none

/-- No move leads to the start pose, which has no heading. -/
theorem ne_startPose_of_mem_moves (h : (target, step) ∈ q.moves p) :
  target ≠ q.startPose
  := by
  rintro rfl
  apply heading_ne_none_of_mem_moves h rfl

/-- No move leads to a blocked cell. -/
theorem isBlocked_of_mem_moves (h : (target, step) ∈ q.moves p) :
  q.grid.isBlocked target.cell = false
  := by
  obtain ⟨i, hopen, -, -⟩ := mem_moves.mp h
  apply (Grid.open?_eq_some.mp hopen).2

/-- A move leads to a neighbour. -/
theorem isNeighbour_of_mem_moves (hp : q.Has p) (h : (target, step) ∈ q.moves p) :
  p.cell.IsNeighbour target.cell
  := by
  obtain ⟨i, hopen, -, -⟩ := mem_moves.mp h
  apply ((Lattice.exists_step?_iff hp).mp ⟨i, (Grid.open?_eq_some.mp hopen).1⟩).1

/-- No move leads to the pose that it starts from. -/
theorem ne_of_mem_moves (hp : q.Has p) (h : (target, step) ∈ q.moves p) :
  target ≠ p
  := by
  rintro rfl
  have hnear := isNeighbour_of_mem_moves hp h
  unfold Cell.IsNeighbour at hnear
  omega

/-- Every free neighbour of a cell is reached by a move. -/
theorem exists_mem_moves {d : Cell} (hp : q.Has p) (hnear : p.cell.IsNeighbour d)
    (hd : q.grid.lattice.inBounds d = true) (hfree : q.grid.isBlocked d = false) :
  ∃ h step, ((⟨d, some h⟩ : Pose), step) ∈ q.moves p
  := by
  obtain ⟨h, hstep⟩ := (Lattice.exists_step?_iff hp).mpr ⟨hnear, hd⟩
  use h, q.stepCost p h d
  apply mem_moves.mpr
  use h, Grid.open?_eq_some.mpr ⟨hstep, hfree⟩

end Quest

/-! ### Labels -/

namespace Labels

variable {labels : Labels} {q : Quest} {p r : Pose} {label : Label}

/-- A label is found where it was put, and elsewhere what was found before. -/
theorem find?_put (hsize : labels.size = q.poseCount) (hp : q.Has p) (hr : q.Has r) :
  (labels.put q p label).find? q r = if p = r then some label else labels.find? q r
  := by
  have hlt : q.index p < labels.size := by
    rw [hsize]
    apply Quest.index_lt hp
  rw [find?, put]
  rw [Array.getElem?_setIfInBounds, if_congr (Quest.index_inj hp hr) rfl rfl, if_pos hlt]
  split_ifs with h
  · rfl
  · rfl

theorem find?_put_self (hsize : labels.size = q.poseCount) (hp : q.Has p) :
  (labels.put q p label).find? q p = some label
  := by
  rw [find?_put hsize hp hp, if_pos rfl]

theorem find?_put_of_ne (hsize : labels.size = q.poseCount) (hp : q.Has p) (hr : q.Has r)
    (h : p ≠ r) :
  (labels.put q p label).find? q r = labels.find? q r
  := by
  rw [find?_put hsize hp hr, if_neg h]

/-- What is found behind a new label is the new one or an old one. -/
theorem eq_or_of_find?_put {found : Label} (hsize : labels.size = q.poseCount) (hp : q.Has p)
    (hr : q.Has r) (h : (labels.put q p label).find? q r = some found) :
  r = p ∧ found = label ∨ r ≠ p ∧ labels.find? q r = some found
  := by
  rw [find?_put hsize hp hr] at h
  split_ifs at h with heq
  · exact Or.inl ⟨heq.symm, (Option.some.inj h).symm⟩
  · exact Or.inr ⟨Ne.symm heq, h⟩

@[simp]
theorem size_put :
  (labels.put q p label).size = labels.size
  := by
  apply Array.size_setIfInBounds

@[simp]
theorem size_close :
  (labels.close q p).size = labels.size
  := by
  apply Array.size_modify

/-- Closing a pose takes the ticket from its label and leaves everything else. -/
theorem find?_close (hp : q.Has p) (hr : q.Has r) :
  (labels.close q p).find? q r = (labels.find? q r).map fun label =>
    ⟨label.cost, label.parent, if p = r then none else label.ticket⟩
  := by
  unfold find? close
  rw [Array.getElem?_modify, if_congr (Quest.index_inj hp hr) rfl rfl]
  split_ifs with h
  · cases labels[q.index r]? with
    | none => rfl
    | some found => cases found with
      | none => rfl
      | some label => rfl
  · cases labels[q.index r]? with
    | none => rfl
    | some found => cases found with
      | none => rfl
      | some label => rfl

theorem cost_of_find? (h : labels.find? q p = some label) :
  labels.cost q p = label.cost
  := by
  rw [cost, h]

theorem parent?_of_find? (h : labels.find? q p = some label) :
  labels.parent? q p = label.parent
  := by
  rw [parent?, h]
  rfl

theorem ticket?_of_find? (h : labels.find? q p = some label) :
  labels.ticket? q p = label.ticket
  := by
  rw [ticket?, h]
  rfl

/-- The cost of a pose is found in its label. -/
theorem cost_congr {labels' : Labels} (h : labels'.find? q p = labels.find? q p) :
  labels'.cost q p = labels.cost q p
  := by
  rw [cost, h, cost]

/-- The ticket of a pose is found in its label. -/
theorem ticket?_congr {labels' : Labels} (h : labels'.find? q p = labels.find? q p) :
  labels'.ticket? q p = labels.ticket? q p
  := by
  rw [ticket?, h, ticket?]

/-- Closing a pose leaves all costs. -/
@[simp]
theorem cost_close (hp : q.Has p) (hr : q.Has r) :
  (labels.close q p).cost q r = labels.cost q r
  := by
  unfold cost
  rw [find?_close hp hr]
  cases labels.find? q r with
  | none => rfl
  | some label => rfl

/-- Closing a pose leaves the poses before others. -/
@[simp]
theorem parent?_close (hp : q.Has p) (hr : q.Has r) :
  (labels.close q p).parent? q r = labels.parent? q r
  := by
  unfold parent?
  rw [find?_close hp hr]
  cases labels.find? q r with
  | none => rfl
  | some label => rfl

end Labels

end DiagramLayout
