import DiagramLayout.Proofs.Scene.Tidy.Basic

/-!
# The heads of lifelines

The heads of lifelines stand in one row. With the standard settings they are narrower than the distance
of two lifelines.
-/

namespace DiagramLayout

open Single

/-- The standard settings of sequence diagrams. -/
abbrev SequenceSettings.standard : SequenceSettings :=
  Settings.standard.sequence

namespace SequenceDiagram

variable {d : SequenceDiagram} {index : ℕ}

/-- The places of the lifelines are whole. -/
theorem isWhole_lifelineX (h : index ≤ 20002) :
  IsWhole (SequenceSettings.standard.lifelineX index) (120 + index * 180)
  := isWhole_place (isWhole_ofNat (n := 120) (by norm_num)) (isWhole_ofNat (n := 180) (by norm_num))
      index (by omega) (by rw [abs_le]; omega) (by rw [abs_le]; omega)

/-- The box of a participant is at whole coordinates. -/
theorem isAt_participantNode (h : index ≤ 20002) (name : String) :
  (SequenceSettings.standard.participantNode index name).box.IsAt (120 + index * 180 - 60) 44 120 40
  := by
  have hline := isWhole_lifelineX h
  have hwidth : IsWhole SequenceSettings.standard.headerWidth (60 * 2) :=
    isWhole_ofNat (n := 120) (by norm_num)
  constructor
  case x => apply hline.sub (hwidth.half (by norm_num)) (by rw [abs_le]; omega)
  case y => apply isWhole_ofNat (n := 44) (by norm_num)
  case width => exact hwidth
  case height => apply isWhole_ofNat (n := 40) (by norm_num)

theorem spans_participantNode (h : index ≤ 20002) (name : String) :
  (SequenceSettings.standard.participantNode index name).box.Spans (120 + index * 180 - 60)
    (120 + index * 180 - 60 + 120) 44 (44 + 40)
  := (isAt_participantNode h name).spans (by rw [abs_le]; omega) (by norm_num)

/-- Every node is that of a participant, at its place in the list. -/
theorem exists_of_mem_nodes {n : Node} (h : n ∈ (SequenceSettings.standard.nodes d).values) :
  ∃ index, ∃ h : index < d.participants.size,
    n = SequenceSettings.standard.participantNode index (d.participants.toList[index])
  := by
  obtain ⟨index, hindex, rfl⟩ := List.mem_mapIdx.mp (Node.mem_of_mem_catalog h)
  exact ⟨index, hindex, rfl⟩

/-- The scene of a sequence diagram that is not too large is tidy. -/
theorem isTidy_scene (hd : d.participants.size ≤ 20002) :
  (d.scene .standard).IsTidy
  := by
  constructor
  case apart =>
    apply (Node.areIndexed_catalog _).pairwise_values
    intro m hm n hn hne
    obtain ⟨i, hi, rfl⟩ := exists_of_mem_nodes hm
    obtain ⟨j, hj, rfl⟩ := exists_of_mem_nodes hn
    have hij : i ≠ j := by
      rintro rfl
      exact hne rfl
    apply (spans_participantNode (by omega) _).intersects_eq_false
      (spans_participantNode (by omega) _)
    omega
  case within =>
    intro n hn
    obtain ⟨i, hi, rfl⟩ := exists_of_mem_nodes hn
    have hspans := spans_participantNode (by omega : i ≤ 20002) d.participants.toList[i]
    have hminWidth : IsWhole SequenceSettings.standard.minWidth 900 :=
      isWhole_ofNat (n := 900) (by norm_num)
    have hminHeight : IsWhole SequenceSettings.standard.minHeight 420 :=
      isWhole_ofNat (n := 420) (by norm_num)
    -- The canvas reaches as far as a participant behind the last one would begin.
    have hlast : IsWhole (SequenceSettings.standard.participantStartX
        + Float32.ofNat d.participants.size * SequenceSettings.standard.participantGap)
        (120 + d.participants.size * 180) :=
      isWhole_place (isWhole_ofNat (n := 120) (by norm_num)) (isWhole_ofNat (n := 180) (by norm_num))
        _ (by omega) (by rw [abs_le]; omega) (by rw [abs_le]; omega)
    have hend : IsWhole (SequenceSettings.standard.participantStartX
        + Float32.ofNat d.participants.size * SequenceSettings.standard.participantGap
        + SequenceSettings.standard.rightMargin) (120 + d.participants.size * 180 + 180) :=
      hlast.add (isWhole_ofNat (n := 180) (by norm_num)) (by rw [abs_le]; omega)
    apply hspans.isWithin (by omega) (by norm_num)
    · apply (hspans.right.le_iff (hminWidth.greater hend)).mpr
      omega
    · have hle : (420.0 : Float32) ≤ (d.scene .standard).height :=
        le_greater_left hminHeight.isNumber _
      apply Single.le_trans _ hle
      apply (hspans.bottom.le_iff hminHeight).mpr
      omega

end SequenceDiagram

end DiagramLayout
