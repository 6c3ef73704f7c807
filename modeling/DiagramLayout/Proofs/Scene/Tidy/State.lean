import DiagramLayout.Proofs.Scene.States
import DiagramLayout.Proofs.Scene.Tidy.Basic

/-!
# States and pseudo states

States stand in the cells of a square, and with the standard settings a cell is larger than a state.
The pseudo state is on the left of all states where it is left, and on the right of them where it is
entered.
-/

namespace DiagramLayout

open Single

namespace StateSettings

/-- The standard settings of state diagrams. -/
abbrev standard : StateSettings :=
  Settings.standard.state

/-- The box of a state in a column and a row. -/
def cell (s : StateSettings) (column row : ℕ) : Rect :=
  ⟨s.startX + Float32.ofNat column * s.cellWidth, s.startY + Float32.ofNat row * s.cellHeight,
    s.stateWidth, s.stateHeight⟩

variable {d : StateDiagram} {column row column' row' : ℕ} {states : Catalog Node} {m n : Node}
  {k : ℤ}

/-! ### Boxes -/

/-- The cells of the grid are at whole coordinates, as far as states are placed. -/
theorem isAt_cell (hcolumn : column ≤ 20002) (hrow : row ≤ 20002) :
  (standard.cell column row).IsAt (150 + column * 230) (140 + row * 150) 140 60
  := by
  constructor
  case x =>
    apply isWhole_place (isWhole_ofNat (n := 150) (by norm_num))
      (isWhole_ofNat (n := 230) (by norm_num)) column (by omega) (by rw [abs_le]; omega)
      (by rw [abs_le]; omega)
  case y =>
    apply isWhole_place (isWhole_ofNat (n := 140) (by norm_num))
      (isWhole_ofNat (n := 150) (by norm_num)) row (by omega) (by rw [abs_le]; omega)
      (by rw [abs_le]; omega)
  case width => apply isWhole_ofNat (n := 140) (by norm_num)
  case height => apply isWhole_ofNat (n := 60) (by norm_num)

theorem spans_cell (hcolumn : column ≤ 20002) (hrow : row ≤ 20002) :
  (standard.cell column row).Spans (150 + column * 230) (150 + column * 230 + 140) (140 + row * 150)
    (140 + row * 150 + 60)
  := by
  apply (isAt_cell hcolumn hrow).spans (by rw [abs_le]; omega) (by rw [abs_le]; omega)

/-- Different cells of the grid do not intersect. -/
theorem apart_cells (hcolumn : column ≤ 20002) (hrow : row ≤ 20002) (hcolumn' : column' ≤ 20002)
    (hrow' : row' ≤ 20002) (hne : column ≠ column' ∨ row ≠ row') :
  (standard.cell column row).intersects (standard.cell column' row') = false
  := by
  apply (spans_cell hcolumn hrow).intersects_eq_false (spans_cell hcolumn' hrow')
  omega

/-- The box of the initial marker is at whole coordinates. -/
theorem isAt_initialNode :
  standard.initialNode.box.IsAt (70 - 10) (150 - 10) (10 * 2) (10 * 2)
  := by
  have hcenter : (Point.mk standard.pseudoStartX standard.pseudoY).IsAt 70 150 :=
    ⟨isWhole_ofNat (n := 70) (by norm_num), isWhole_ofNat (n := 150) (by norm_num)⟩
  apply Rect.isAt_around hcenter (isWhole_ofNat (n := 10) (by norm_num)) (by norm_num)
    (by norm_num) (by norm_num)

theorem spans_initialNode :
  standard.initialNode.box.Spans (70 - 10) (70 - 10 + 10 * 2) (150 - 10) (150 - 10 + 10 * 2)
  := isAt_initialNode.spans (by norm_num) (by norm_num)

/-- The box of the final marker is at whole coordinates, around the place that is computed for
it. -/
theorem isAt_finalNode (h : IsWhole (standard.finalX states) k) (hk : |k| ≤ 8000000) :
  (standard.finalNode states).box.IsAt (k - 12) (150 - 12) (12 * 2) (12 * 2)
  := by
  have hcenter : (Point.mk (standard.finalX states) standard.pseudoY).IsAt k 150 :=
    ⟨h, isWhole_ofNat (n := 150) (by norm_num)⟩
  apply Rect.isAt_around hcenter (isWhole_ofNat (n := 12) (by norm_num)) hk (by norm_num)
    (by norm_num)

theorem spans_finalNode (h : IsWhole (standard.finalX states) k) (hk : |k| ≤ 8000000) :
  (standard.finalNode states).box.Spans (k - 12) (k - 12 + 12 * 2) (150 - 12) (150 - 12 + 12 * 2)
  := by
  have hbox := isAt_finalNode h hk
  rw [abs_le] at hk
  apply hbox.spans (by rw [abs_le]; omega) (by norm_num)

/-! ### Nodes -/

/-- Every state stands in a cell of the grid. -/
theorem exists_cell (hd : d.states.size ≤ 20002) (h : n ∈ (standard.stateNodes d).values) :
  ∃ column row, column ≤ 20002 ∧ row ≤ 20002 ∧ n.box = standard.cell column row
  := by
  rw [values_stateNodes] at h
  obtain ⟨index, hindex, rfl⟩ := List.mem_mapIdx.mp h
  have hlt : index < d.states.size := hindex
  have hcolumn := Nat.mod_le index (Scene.columns d.states.size)
  have hrow := Nat.div_le_self index (Scene.columns d.states.size)
  exact ⟨_, _, hcolumn.trans (by omega), hrow.trans (by omega), rfl⟩

/-- No two states share a cell. -/
theorem apart_stateNodes (hd : d.states.size ≤ 20002) (hm : m ∈ (standard.stateNodes d).values)
    (hn : n ∈ (standard.stateNodes d).values) (hne : m.id ≠ n.id) :
  m.box.intersects n.box = false
  := by
  rw [values_stateNodes] at hm hn
  obtain ⟨i, hi, rfl⟩ := List.mem_mapIdx.mp hm
  obtain ⟨j, hj, rfl⟩ := List.mem_mapIdx.mp hn
  have hi' : i < d.states.size := hi
  have hj' : j < d.states.size := hj
  apply apart_cells ((Nat.mod_le i _).trans (by omega)) ((Nat.div_le_self i _).trans (by omega))
    ((Nat.mod_le j _).trans (by omega)) ((Nat.div_le_self j _).trans (by omega))
  by_contra! h
  obtain rfl := Nat.ext_div_mod h.2 h.1
  exact hne rfl

/-- The middle of the node at which a diagram ends. -/
theorem exists_isWhole_finalX (hd : d.states.size ≤ 20002) :
  ∃ k : ℤ, IsWhole (standard.finalX (standard.stateNodes d)) k ∧ 740 ≤ k ∧ k ≤ 5000000
    ∧ ∀ n ∈ (standard.stateNodes d).values, ∀ right, IsWhole n.box.right right → right + 120 ≤ k
  := by
  have hmin : IsWhole standard.minRightmost 620 := isWhole_ofNat (n := 620) (by norm_num)
  have hgap : IsWhole standard.endGap 120 := isWhole_ofNat (n := 120) (by norm_num)
  have hfurthest : ∃ k : ℤ,
      IsWhole (Scene.furthest (standard.stateNodes d) Rect.right standard.minRightmost) k
        ∧ k ≤ 4800000 := by
    rw [Scene.furthest_eq]
    apply foldl_greater_induction (P := fun x => ∃ k : ℤ, IsWhole x k ∧ k ≤ 4800000)
    · exact ⟨620, hmin, by norm_num⟩
    · intro x hx
      obtain ⟨n, hn, rfl⟩ := List.mem_map.mp hx
      obtain ⟨column, row, hcolumn, hrow, hbox⟩ := exists_cell hd hn
      rw [hbox]
      exact ⟨_, (spans_cell hcolumn hrow).right, by omega⟩
  obtain ⟨k, hk, hle⟩ := hfurthest
  have hmin' : 620 ≤ k := by
    rw [← hmin.le_iff hk]
    apply Scene.least_le_furthest _ _ hmin.isNumber
  refine ⟨k + 120, hk.add hgap (by rw [abs_le]; omega), by omega, by omega, ?_⟩
  intro n hn right hright
  have hle' := Scene.le_furthest Rect.right standard.minRightmost hn hright.isNumber
  rw [hright.le_iff hk] at hle'
  omega

/-- A node is that of a state or one of the pseudo state. -/
theorem exists_of_mem_nodes (h : n ∈ (standard.nodes d).values) :
  n ∈ (standard.stateNodes d).values ∨ n = standard.initialNode
    ∨ hasFinal d = true ∧ n = standard.finalNode (standard.stateNodes d)
  := by
  simp only [nodes] at h
  split_ifs at h with hfinal
  · rcases Catalog.eq_or_mem_values_put h with rfl | h
    · exact Or.inr (Or.inr ⟨hfinal, rfl⟩)
    · exact (Catalog.eq_or_mem_values_put h).symm.imp_right Or.inl
  · rcases Catalog.eq_or_mem_values_put h with rfl | h
    · exact Or.inr (Or.inr ⟨hfinal, rfl⟩)
    · exact Or.inl h
  · exact (Catalog.eq_or_mem_values_put h).symm.imp_right Or.inl
  · exact Or.inl h

/-- The boxes of different states and markers do not intersect. -/
theorem apart_nodes (hd : d.states.size ≤ 20002) (hm : m ∈ (standard.nodes d).values)
    (hn : n ∈ (standard.nodes d).values) (hne : m.id ≠ n.id) :
  m.box.intersects n.box = false
  := by
  -- The initial marker is left of all cells, the final one right of them.
  obtain ⟨k, hk, hlow, hhigh, hright⟩ := exists_isWhole_finalX hd
  have hfinal := spans_finalNode hk (by rw [abs_le]; omega)
  rcases exists_of_mem_nodes hm with hm | rfl | ⟨-, rfl⟩
  · obtain ⟨column, row, hcolumn, hrow, hbox⟩ := exists_cell hd hm
    have hspans := hbox ▸ spans_cell hcolumn hrow
    have hend := hright m hm _ hspans.right
    rcases exists_of_mem_nodes hn with hn | rfl | ⟨-, rfl⟩
    · apply apart_stateNodes hd hm hn hne
    · apply hspans.intersects_eq_false spans_initialNode
      omega
    · apply hspans.intersects_eq_false hfinal
      omega
  · rcases exists_of_mem_nodes hn with hn | rfl | ⟨-, rfl⟩
    · obtain ⟨column, row, hcolumn, hrow, hbox⟩ := exists_cell hd hn
      apply spans_initialNode.intersects_eq_false (hbox ▸ spans_cell hcolumn hrow)
      omega
    · contradiction
    · apply spans_initialNode.intersects_eq_false hfinal
      omega
  · rcases exists_of_mem_nodes hn with hn | rfl | ⟨-, rfl⟩
    · obtain ⟨column, row, hcolumn, hrow, hbox⟩ := exists_cell hd hn
      have hspans := hbox ▸ spans_cell hcolumn hrow
      have hend := hright n hn _ hspans.right
      apply hfinal.intersects_eq_false hspans
      omega
    · apply hfinal.intersects_eq_false spans_initialNode
      omega
    · contradiction

/-! ### The canvas -/

theorem isWhole_minWidth :
  IsWhole standard.minWidth 900
  := isWhole_ofNat (n := 900) (by norm_num)

theorem isWhole_minHeight :
  IsWhole standard.minHeight 460
  := isWhole_ofNat (n := 460) (by norm_num)

/-- The canvas is wide enough for the states. -/
theorem furthest_le_canvasWidth (d : StateDiagram) :
  Scene.furthest (standard.stateNodes d) (fun box => box.right + standard.rightMargin)
    standard.minWidth ≤ standard.canvasWidth d
  := by
  have hle := Scene.least_le_furthest (standard.stateNodes d)
    (fun box => box.right + standard.rightMargin) isWhole_minWidth.isNumber
  have hnumber := (le_iff.mp hle).2.1
  simp only [canvasWidth]
  split_ifs
  · apply le_greater_left hnumber
  · apply Single.le_refl hnumber

/-- The states stand within the canvas. -/
theorem isWithin_stateNodes (hd : d.states.size ≤ 20002) (hn : n ∈ (standard.stateNodes d).values) :
  n.box.IsWithin (standard.canvasWidth d) (standard.canvasHeight d)
  := by
  have hrightMargin : IsWhole standard.rightMargin 140 := isWhole_ofNat (n := 140) (by norm_num)
  have hbottomMargin : IsWhole standard.bottomMargin 120 := isWhole_ofNat (n := 120) (by norm_num)
  obtain ⟨column, row, hcolumn, hrow, hbox⟩ := exists_cell hd hn
  have hspans := hbox ▸ spans_cell hcolumn hrow
  apply hspans.isWithin (by omega) (by omega)
  · apply Single.le_trans _ (furthest_le_canvasWidth d)
    apply Scene.le_furthest_add _ hn (hspans.right.nonneg (by omega))
      (hrightMargin.nonneg (by norm_num))
  · apply Scene.le_furthest_add _ hn (hspans.bottom.nonneg (by omega))
      (hbottomMargin.nonneg (by norm_num))

/-- The states and both markers stand within the canvas. -/
theorem isWithin_nodes (hd : d.states.size ≤ 20002) (hn : n ∈ (standard.nodes d).values) :
  n.box.IsWithin (standard.canvasWidth d) (standard.canvasHeight d)
  := by
  have hwidth : standard.minWidth ≤ standard.canvasWidth d := by
    apply Single.le_trans _ (furthest_le_canvasWidth d)
    apply Scene.least_le_furthest _ _ isWhole_minWidth.isNumber
  have hheight : standard.minHeight ≤ standard.canvasHeight d := by
    apply Scene.least_le_furthest _ _ isWhole_minHeight.isNumber
  rcases exists_of_mem_nodes hn with hn | rfl | ⟨hfinal, rfl⟩
  · apply isWithin_stateNodes hd hn
  · have hright := (spans_initialNode.right.le_iff isWhole_minWidth).mpr (by norm_num)
    have hbottom := (spans_initialNode.bottom.le_iff isWhole_minHeight).mpr (by norm_num)
    apply spans_initialNode.isWithin (by norm_num) (by norm_num) (Single.le_trans hright hwidth)
      (Single.le_trans hbottom hheight)
  · obtain ⟨k, hk, hlow, hhigh, -⟩ := exists_isWhole_finalX hd
    have hgap : IsWhole standard.endGap 120 := isWhole_ofNat (n := 120) (by norm_num)
    have hend := hk.add hgap (by rw [abs_le]; omega)
    have hspans := spans_finalNode hk (by rw [abs_le]; omega)
    have hright := (hspans.right.le_iff hend).mpr (by omega)
    have hbottom := (hspans.bottom.le_iff isWhole_minHeight).mpr (by norm_num)
    apply hspans.isWithin (by omega) (by norm_num) _ (Single.le_trans hbottom hheight)
    apply Single.le_trans hright
    simp only [canvasWidth]
    rw [if_pos hfinal]
    apply le_greater _ hend.isNumber

end StateSettings

/-- The scene of a state diagram that is not too large is tidy. -/
theorem StateDiagram.isTidy_scene {d : StateDiagram} (hd : d.states.size ≤ 20002) :
  (d.scene .standard).IsTidy
  := by
  constructor
  case apart =>
    have hindexed := areIndexed_scene { (default : Model) with state := d } .state .standard
    apply Node.AreIndexed.pairwise_values hindexed
    intro m hm n hn
    apply StateSettings.apart_nodes hd hm hn
  case within => exact fun n hn => StateSettings.isWithin_nodes hd hn

end DiagramLayout
