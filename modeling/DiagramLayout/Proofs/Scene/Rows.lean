import DiagramLayout.Proofs.Scene.Attached.Basic
import DiagramLayout.Proofs.Scene.Tidy.Sequence

/-!
# Messages in rows

With the standard settings lifelines run at whole places and each message has a whole height, so that
the anchors of a message are exactly eight beside the two lifelines. A connector between them has two
points at least, however it leads around the heads.
-/

namespace DiagramLayout

open Single

namespace SequenceSettings

variable {sourceX targetX y : Float32} {m n k : ℤ}

/-- The heights of messages are whole. -/
theorem isWhole_messageY {index : ℕ} (h : index ≤ 20002) :
  IsWhole (standard.messageY index) (140 + index * 70)
  := by
  apply isWhole_place (isWhole_ofNat (n := 140) (by norm_num)) (isWhole_ofNat (n := 70) (by norm_num))
    index (by omega) (by rw [abs_le]; omega) (by rw [abs_le]; omega)

theorem isAt_center_participantNode {index : ℕ} (h : index ≤ 20002) (name : String) :
  (standard.participantNode index name).box.center.IsAt (120 + index * 180) 64
  := by
  have hbox : (standard.participantNode index name).box.IsAt (120 + index * 180 - 60) 44 (60 * 2)
      (20 * 2) := SequenceDiagram.isAt_participantNode h name
  have hcenter := hbox.center (by rw [abs_le]; omega) (by norm_num) (by norm_num) (by norm_num)
  rw [sub_add_cancel] at hcenter
  exact hcenter

/-- The anchors of a message sit beside the lifelines on the sides that face each other. -/
theorem isAt_messageEnds (hsource : IsWhole sourceX m) (htarget : IsWhole targetX n) (hy : IsWhole y k)
    (hm : |m| ≤ 8000000) (hn : |n| ≤ 8000000) :
  let ends := standard.messageEnds sourceX targetX y
  if m < n then
    (ends.start.side = some .right ∧ ends.start.point.IsAt (m + 8) k)
      ∧ ends.finish.side = some .left ∧ ends.finish.point.IsAt (n - 8) k
  else
    (ends.start.side = some .left ∧ ends.start.point.IsAt (m - 8) k)
      ∧ ends.finish.side = some .right ∧ ends.finish.point.IsAt (n + 8) k
  := by
  have hclear : IsWhole standard.lifelineClearance 8 := isWhole_ofNat (n := 8) (by norm_num)
  rw [abs_le] at hm hn
  simp only [messageEnds, hsource.lt_iff htarget]
  split_ifs
  · exact ⟨⟨rfl, hsource.add hclear (by rw [abs_le]; omega), hy⟩, rfl,
      htarget.sub hclear (by rw [abs_le]; omega), hy⟩
  · exact ⟨⟨rfl, hsource.sub hclear (by rw [abs_le]; omega), hy⟩, rfl,
      htarget.add hclear (by rw [abs_le]; omega), hy⟩

/-- A message ends with a whole stub. -/
theorem hasStub_messageEnds (hsource : IsWhole sourceX m) (htarget : IsWhole targetX n)
    (hy : IsWhole y k) (hm : |m| ≤ 8000000) (hn : |n| ≤ 8000000) (hk : |k| ≤ 8000000) :
  Connector.HasStub standard.route (standard.messageEnds sourceX targetX y).finish
  := by
  have hstubs : standard.route.HasStubs :=
    RouteSpacing.hasStubs (isWhole_ofNat (n := 10) (by norm_num)) (by norm_num) (by norm_num)
  have hends := isAt_messageEnds hsource htarget hy hm hn
  rw [abs_le] at hm hn hk
  split_ifs at hends
  all_goals
    obtain ⟨-, hside, hpoint⟩ := hends
    apply hstubs.hasStub (Option.isSome_of_eq_some hside) hpoint (by rw [abs_le]; omega)
      (by rw [abs_le]; omega)

end SequenceSettings

namespace Message

open SequenceSettings (standard)

variable {d : SequenceDiagram} {index : ℕ} {source target : Node}

/-- The edge of a message leads from one of its anchors to the other one. -/
theorem rowEdge_arrives (hd : d.participants.size ≤ 20002) (hindex : index ≤ 20002)
    (hsource : source ∈ (standard.nodes d).values) (htarget : target ∈ (standard.nodes d).values)
    (message : Message) :
  let ends := standard.messageEnds source.box.center.x target.box.center.x (standard.messageY index)
  let points := (message.rowEdge .standard (standard.nodes d) index source target).points
  2 ≤ points.length ∧ points.head? = some ends.start.point
    ∧ points.getLast? = some ends.finish.point
  := by
  obtain ⟨i, hi, rfl⟩ := SequenceDiagram.exists_of_mem_nodes hsource
  obtain ⟨j, hj, rfl⟩ := SequenceDiagram.exists_of_mem_nodes htarget
  apply Connector.route_arrives _ hasPenalties_standard
  apply SequenceSettings.hasStub_messageEnds
    (SequenceSettings.isAt_center_participantNode (hi.le.trans hd) _).x
    (SequenceSettings.isAt_center_participantNode (hj.le.trans hd) _).x
    (SequenceSettings.isWhole_messageY hindex)
  all_goals
    rw [abs_le]
    omega

end Message

namespace SequenceDiagram

variable {d : SequenceDiagram}

/-- Each message between participants is drawn at its height. -/
theorem forall₂_edges {settings : Settings}
    (hbetween : ∀ m ∈ d.messages, m.link.IsBetween (d.scene settings).nodes.keys) :
  List.Forall₂ (fun (m : Message × ℕ) e => m.1.edge? settings (d.scene settings).nodes m.2 = some e)
    d.messages.zipIdx (d.scene settings).edges
  := by
  apply forall₂_filterMap
  rintro ⟨message, index⟩ hmessage
  apply Option.isSome_iff_exists.mp
  rw [← Option.isSome_map (f := Edge.link), Message.map_link_edge?,
    if_pos (hbetween message (List.fst_mem_of_mem_zipIdx hmessage))]
  rfl

end SequenceDiagram

end DiagramLayout
