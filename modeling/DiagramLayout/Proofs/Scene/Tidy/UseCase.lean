import DiagramLayout.Proofs.Scene.Tidy.Basic

/-!
# Actors and use cases

Actors stand in one column and use cases in another. With the standard settings the columns are apart,
and in each of them the nodes are less high than their distance.
-/

namespace DiagramLayout

open Single

/-- The standard settings of use case diagrams. -/
abbrev UseCaseSettings.standard : UseCaseSettings :=
  Settings.standard.useCase

namespace UseCaseDiagram

variable {d : UseCaseDiagram} {index : ℕ} {n : Node}

/-- The heights at which actors stand are whole. -/
theorem isWhole_actorY (h : index ≤ 20002) :
  IsWhole (UseCaseSettings.standard.actorStartY
    + Float32.ofNat index * UseCaseSettings.standard.actorSpacing) (120 + index * 130)
  := by
  apply isWhole_place (isWhole_ofNat (n := 120) (by norm_num))
    (isWhole_ofNat (n := 130) (by norm_num)) index (by omega) (by rw [abs_le]; omega)
    (by rw [abs_le]; omega)

/-- The heights at which use cases stand are whole. -/
theorem isWhole_useCaseY (h : index ≤ 20002) :
  IsWhole (UseCaseSettings.standard.useCaseStartY
    + Float32.ofNat index * UseCaseSettings.standard.useCaseSpacing) (110 + index * 110)
  := by
  apply isWhole_place (isWhole_ofNat (n := 110) (by norm_num))
    (isWhole_ofNat (n := 110) (by norm_num)) index (by omega) (by rw [abs_le]; omega)
    (by rw [abs_le]; omega)

/-- The bounds of the box of an actor. -/
theorem spans_actorNode (h : index ≤ 20002) (name : String) :
  (UseCaseSettings.standard.actorNode index name).box.Spans (120 - 24) (120 - 24 + 24 * 2)
    (120 + index * 130 - 46) (120 + index * 130 - 46 + 46 * 2)
  := by
  apply Rect.spans_centred (isWhole_ofNat (n := 120) (by norm_num)) (isWhole_actorY h)
    (isWhole_ofNat (n := 48) (by norm_num)) (isWhole_ofNat (n := 92) (by norm_num)) (by norm_num)
    (by rw [abs_le]; omega) (by norm_num) (by norm_num)

/-- The bounds of the box of a use case. -/
theorem spans_useCaseNode (h : index ≤ 20002) (name : String) :
  (UseCaseSettings.standard.useCaseNode index name).box.Spans (440 - 90) (440 - 90 + 90 * 2)
    (110 + index * 110 - 30) (110 + index * 110 - 30 + 30 * 2)
  := by
  apply Rect.spans_centred (isWhole_ofNat (n := 440) (by norm_num)) (isWhole_useCaseY h)
    (isWhole_ofNat (n := 180) (by norm_num)) (isWhole_ofNat (n := 60) (by norm_num)) (by norm_num)
    (by rw [abs_le]; omega) (by norm_num) (by norm_num)

/-- Every node is that of an actor or of a use case, at its place in the list. -/
theorem exists_of_mem_nodes (h : n ∈ (UseCaseSettings.standard.nodes d).values) :
  (∃ index, ∃ h : index < d.actors.size,
      n = UseCaseSettings.standard.actorNode index (d.actors.toList[index]))
    ∨ ∃ index, ∃ h : index < d.useCases.size,
      n = UseCaseSettings.standard.useCaseNode index (d.useCases.toList[index])
  := by
  apply (List.mem_append.mp (Node.mem_of_mem_catalog h)).imp
  · intro hactor
    obtain ⟨index, hindex, rfl⟩ := List.mem_mapIdx.mp hactor
    exact ⟨index, hindex, rfl⟩
  · intro huseCase
    obtain ⟨index, hindex, rfl⟩ := List.mem_mapIdx.mp huseCase
    exact ⟨index, hindex, rfl⟩

/-- The boxes of different actors and use cases do not intersect. -/
theorem apart_nodes (hactors : d.actors.size ≤ 20002) (huseCases : d.useCases.size ≤ 20002)
    {m n : Node} (hm : m ∈ (UseCaseSettings.standard.nodes d).values)
    (hn : n ∈ (UseCaseSettings.standard.nodes d).values) (hne : m.id ≠ n.id) :
  m.box.intersects n.box = false
  := by
  rcases exists_of_mem_nodes hm with ⟨i, hi, rfl⟩ | ⟨i, hi, rfl⟩
  · have hspans := spans_actorNode (by omega : i ≤ 20002) d.actors.toList[i]
    rcases exists_of_mem_nodes hn with ⟨j, hj, rfl⟩ | ⟨j, hj, rfl⟩
    · have hij : i ≠ j := by
        rintro rfl
        exact hne rfl
      apply hspans.intersects_eq_false (spans_actorNode (by omega) _)
      omega
    · apply hspans.intersects_eq_false (spans_useCaseNode (by omega) _)
      omega
  · have hspans := spans_useCaseNode (by omega : i ≤ 20002) d.useCases.toList[i]
    rcases exists_of_mem_nodes hn with ⟨j, hj, rfl⟩ | ⟨j, hj, rfl⟩
    · apply hspans.intersects_eq_false (spans_actorNode (by omega) _)
      omega
    · have hij : i ≠ j := by
        rintro rfl
        exact hne rfl
      apply hspans.intersects_eq_false (spans_useCaseNode (by omega) _)
      omega

/-- The lower end of the canvas. -/
theorem isWhole_canvasHeight (hactors : d.actors.size ≤ 20002)
    (huseCases : d.useCases.size ≤ 20002) :
  IsWhole (UseCaseSettings.standard.canvasHeight d)
    (max (max (120 + (d.actors.size : ℤ) * 130) (110 + (d.useCases.size : ℤ) * 110)) 360 + 80)
  := by
  have hmin : IsWhole UseCaseSettings.standard.minHeight 360 :=
    isWhole_ofNat (n := 360) (by norm_num)
  have hmargin : IsWhole UseCaseSettings.standard.margin 80 := isWhole_ofNat (n := 80) (by norm_num)
  apply (((isWhole_actorY hactors).greater (isWhole_useCaseY huseCases)).greater hmin).add hmargin
  rw [abs_le]
  omega

/-- The scene of a use case diagram that is not too large is tidy. -/
theorem isTidy_scene (hactors : d.actors.size ≤ 20002) (huseCases : d.useCases.size ≤ 20002) :
  (d.scene .standard).IsTidy
  := by
  constructor
  case apart =>
    apply (Node.areIndexed_catalog _).pairwise_values
    intro m hm n hn
    apply apart_nodes hactors huseCases hm hn
  case within =>
    intro n hn
    have hmargin : IsWhole UseCaseSettings.standard.margin 80 :=
      isWhole_ofNat (n := 80) (by norm_num)
    have hheight := isWhole_canvasHeight hactors huseCases
    have hwidth : ∀ {right : ℤ}, IsWhole n.box.right right → 0 ≤ right →
        n.box.right ≤ (d.scene .standard).width := by
      intro right hright hnonneg
      apply Scene.le_furthest_add _ hn (hright.nonneg hnonneg) (hmargin.nonneg (by norm_num))
    rcases exists_of_mem_nodes hn with ⟨i, hi, rfl⟩ | ⟨i, hi, rfl⟩
    · have hspans := spans_actorNode (by omega : i ≤ 20002) d.actors.toList[i]
      apply hspans.isWithin (by norm_num) (by omega) (hwidth hspans.right (by norm_num))
      apply (hspans.bottom.le_iff hheight).mpr
      omega
    · have hspans := spans_useCaseNode (by omega : i ≤ 20002) d.useCases.toList[i]
      apply hspans.isWithin (by norm_num) (by omega) (hwidth hspans.right (by norm_num))
      apply (hspans.bottom.le_iff hheight).mpr
      omega

end UseCaseDiagram

end DiagramLayout
