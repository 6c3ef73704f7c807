import DiagramLayout.Proofs.Route.Level
import DiagramLayout.Proofs.Scene.Rows
import DiagramLayout.Proofs.Script.Size

/-!
# Messages are straight lines

With the standard settings a message between two participants is drawn as a single horizontal line at its
height, from beside the lifeline of the sender to beside that of the receiver. The line is found by the
search on the routing grid, or is the single turn where the grid is too large, and comes out the same: the
heads of the lifelines end more than a pitch of the grid above the first message, so the connector of the
message is level.
-/

namespace DiagramLayout

open Single

/-- The point has the coordinates `x` and `y`, without any error. -/
structure Point.StandsAt (p : Point) (x y : ℚ) : Prop where
  x : IsRational p.x ∧ value p.x = x
  y : IsRational p.y ∧ value p.y = y

theorem Point.IsAt.standsAt {p : Point} {m n : ℤ} (h : p.IsAt m n) :
  p.StandsAt m n
  := ⟨⟨h.x.isRational, h.x.value_eq⟩, h.y.isRational, h.y.value_eq⟩

/-- The edge has two points. Both are at the height `y`, each is beside one of two lifelines by the
clearance, and they are on the sides of the lifelines that face each other. -/
def Edge.RunsBetween (e : Edge) (source target : Lifeline) (clearance y : ℚ) : Prop :=
  ∃ p q, e.points = [p, q]
    ∧ (value source.x < value target.x ∧ p.StandsAt (value source.x + clearance) y
        ∧ q.StandsAt (value target.x - clearance) y
      ∨ value target.x < value source.x ∧ p.StandsAt (value source.x - clearance) y
        ∧ q.StandsAt (value target.x + clearance) y)

/-- The edge runs between the lifelines of the sender and of the receiver, at the height of the message at
the index. -/
def Message.RunsStraight (settings : SequenceSettings) (lifelines : List Lifeline) (m : Message)
    (index : ℕ) (e : Edge) : Prop :=
  ∃ source ∈ lifelines, ∃ target ∈ lifelines, source.participant = m.sender
    ∧ target.participant = m.receiver
    ∧ e.RunsBetween source target (value settings.lifelineClearance)
      (value settings.messageStartY + index * value settings.messageGap)

/-! ### Connectors of messages -/

namespace SequenceDiagram

open SequenceSettings (standard)

variable {d : SequenceDiagram} {index i j : ℕ} {ends : Attachment} {m n : ℤ}

/-- The connector of a message with given ends. -/
def rowConnector (d : SequenceDiagram) (ends : Attachment) : Connector :=
  ⟨ends.start, ends.finish, Scene.obstacles (standard.nodes d), standard.route, Settings.standard.router⟩

/-- The heads of the lifelines, grown by the padding, end at the height 90. -/
theorem exists_spans_padded (hd : d.participants.size ≤ 20002) {r : Rect}
    (hr : r ∈ (d.rowConnector ends).padded) :
  ∃ a b, r.Spans a b 38 90 ∧ 54 ≤ a ∧ b ≤ 3900000
  := by
  obtain ⟨o, ho, rfl⟩ := List.mem_map.mp hr
  obtain ⟨node, hnode, rfl⟩ := List.mem_map.mp ho
  obtain ⟨i, hi, rfl⟩ := exists_of_mem_nodes hnode
  have hpadding : IsWhole standard.route.padding 6 := isWhole_ofNat (n := 6) (by norm_num)
  have hspans := (isAt_participantNode (hi.le.trans hd) d.participants.toList[i]).inflate hpadding
    (by rw [abs_le]; omega) (by norm_num) (by norm_num) (by norm_num) (by norm_num)
  exact ⟨_, _, hspans, by omega, by omega⟩

/-- The connector of a message is level when its ends point at each other at the height of the message. -/
theorem isLevel_rowConnector (hd : d.participants.size ≤ 20002) (hindex : index ≤ 20002)
    (hstart : ends.start.point.IsAt m (140 + index * 70))
    (hfinish : ends.finish.point.IsAt n (140 + index * 70))
    (hwidth : (0 ≤ m ∧ m ≤ 3900000) ∧ 0 ≤ n ∧ n ≤ 3900000)
    (hfacing : ends.start.side = some .right ∧ ends.finish.side = some .left ∧ m + 2 * 10 + 12 ≤ n
      ∨ ends.start.side = some .left ∧ ends.finish.side = some .right ∧ n + 2 * 10 + 12 ≤ m) :
  (d.rowConnector ends).IsLevel m n (140 + index * 70) 12 10
  := by
  constructor
  case start => exact hstart
  case finish => exact hfinish
  case width => exact hwidth
  case height => omega
  case gridSize => exact ⟨isWhole_ofNat (n := 12) (by norm_num), by norm_num, by norm_num⟩
  case stubLength => exact ⟨isWhole_ofNat (n := 10) (by norm_num), by norm_num, by norm_num⟩
  case margin => exact ⟨80, isWhole_ofNat (n := 80) (by norm_num), by norm_num, by norm_num⟩
  case facing => exact hfacing
  case above =>
    intro r hr
    obtain ⟨a, b, hspans, ha, hb⟩ := exists_spans_padded hd hr
    exact ⟨a, b, 38, 90, hspans, by omega, by omega⟩

/-- Between two lifelines the connector of a message is a straight line. -/
theorem route_rowConnector (hd : d.participants.size ≤ 20002) (hindex : index ≤ 20002)
    (hi : i < d.participants.size) (hj : j < d.participants.size) (hij : i ≠ j)
    {sourceX targetX : Float32} (hsource : IsWhole sourceX (120 + i * 180))
    (htarget : IsWhole targetX (120 + j * 180)) :
  let ends := standard.messageEnds sourceX targetX (standard.messageY index)
  (d.rowConnector ends).route = [ends.start.point, ends.finish.point]
  := by
  intro ends
  have hends := SequenceSettings.isAt_messageEnds hsource htarget
    (SequenceSettings.isWhole_messageY hindex) (by rw [abs_le]; omega) (by rw [abs_le]; omega)
  split_ifs at hends
  all_goals obtain ⟨⟨hside, hstart⟩, hside', hfinish⟩ := hends
  · exact (isLevel_rowConnector hd hindex hstart hfinish (by omega)
      (.inl ⟨hside, hside', by omega⟩)).route_eq hasPenalties_standard
  · exact (isLevel_rowConnector hd hindex hstart hfinish (by omega)
      (.inr ⟨hside, hside', by omega⟩)).route_eq hasPenalties_standard

/-- The node of a participant stands on its lifeline. -/
theorem exists_lifeline (hd : d.participants.size ≤ 20002) {name : String} {node : Node}
    (h : (standard.nodes d).find? name = some node) :
  ∃ i < d.participants.size, d.participants.toList[i]? = some name
    ∧ IsWhole node.box.center.x (120 + i * 180)
    ∧ ∃ line ∈ (d.scene .standard).lifelines, line.participant = name ∧ IsWhole line.x (120 + i * 180)
  := by
  have hid := (Node.areIndexed_catalog _).id_eq h
  obtain ⟨i, hi, rfl⟩ := exists_of_mem_nodes (Catalog.mem_values_of_find? h)
  have hname : d.participants.toList[i] = name := hid
  have hle : i ≤ 20002 := hi.le.trans hd
  refine ⟨i, hi, List.getElem?_eq_some_iff.mpr ⟨hi, hname⟩,
    (SequenceSettings.isAt_center_participantNode hle _).x, _,
    List.mem_mapIdx.mpr ⟨i, hi, rfl⟩, hname, isWhole_lifelineX hle⟩

end SequenceDiagram

/-! ### Edges of messages -/

section Edges

open SequenceSettings (standard)

variable {d : SequenceDiagram} {message : Message} {index : ℕ} {e : Edge}

theorem Message.link_edge? {settings : Settings} {nodes : Catalog Node}
    (h : message.edge? settings nodes index = some e) :
  e.link = message.link
  := by
  have hlink : (message.edge? settings nodes index).map Edge.link = _ := message.map_link_edge? index
  rw [h, Option.map_some] at hlink
  split_ifs at hlink
  exact Option.some.inj hlink

/-- The edge of a message between two participants runs straight from one lifeline to the other. -/
theorem Message.runsStraight_edge? (hd : d.participants.size ≤ 20002) (hindex : index ≤ 20002)
    (h : message.edge? .standard (standard.nodes d) index = some e)
    (hne : message.sender ≠ message.receiver) :
  message.RunsStraight standard (d.scene .standard).lifelines index e
  := by
  rw [edge?] at h
  split at h
  case h_2 => contradiction
  case h_1 source target hsource htarget =>
    rw [if_neg hne] at h
    obtain rfl := Option.some.inj h
    obtain ⟨i, hi, hsender, hx, line, hline, hname, hlineX⟩ := SequenceDiagram.exists_lifeline hd hsource
    obtain ⟨j, hj, hreceiver, hx', line', hline', hname', hlineX'⟩ :=
      SequenceDiagram.exists_lifeline hd htarget
    -- The ends of the message are the lifelines of its participants, each less the clearance.
    have hij : i ≠ j := by
      rintro rfl
      exact hne (Option.some.inj (hsender.symm.trans hreceiver))
    have hpoints := SequenceDiagram.route_rowConnector hd hindex hi hj hij hx hx'
    have hends := SequenceSettings.isAt_messageEnds hx hx' (SequenceSettings.isWhole_messageY hindex)
      (by rw [abs_le]; omega) (by rw [abs_le]; omega)
    have hclearance : IsWhole standard.lifelineClearance 8 := isWhole_ofNat (n := 8) (by norm_num)
    have hfirst : IsWhole standard.messageStartY 140 := isWhole_ofNat (n := 140) (by norm_num)
    have hgap : IsWhole standard.messageGap 70 := isWhole_ofNat (n := 70) (by norm_num)
    refine ⟨line, hline, line', hline', hname, hname', _, _, hpoints, ?_⟩
    rw [hlineX.value_eq, hlineX'.value_eq, hclearance.value_eq, hfirst.value_eq, hgap.value_eq]
    split_ifs at hends with hlt
    all_goals obtain ⟨⟨-, hstart⟩, -, hfinish⟩ := hends
    · left
      refine ⟨by exact_mod_cast hlt, ?_, ?_⟩
      · exact_mod_cast hstart.standsAt
      · exact_mod_cast hfinish.standsAt
    · right
      have hgt : (120 + j * 180 : ℤ) < 120 + i * 180 := by omega
      refine ⟨by exact_mod_cast hgt, ?_, ?_⟩
      · exact_mod_cast hstart.standsAt
      · exact_mod_cast hfinish.standsAt

/-- In a diagram of moderate size every message has its edge, a straight line when it leads from one
participant to another. -/
theorem SequenceDiagram.forall₂_runsStraight (hd : d.participants.size ≤ 20002)
    (hmessages : d.messages.length ≤ 20002)
    (hbetween : ∀ m ∈ d.messages, m.link.IsBetween (d.scene .standard).nodes.keys) :
  List.Forall₂ (fun (m : Message × ℕ) e => e.link = m.1.link ∧ (m.1.sender ≠ m.1.receiver →
      m.1.RunsStraight standard (d.scene .standard).lifelines m.2 e))
    d.messages.zipIdx (d.scene .standard).edges
  := by
  obtain ⟨hlength, hedges⟩ := List.forall₂_iff_zip.mp (forall₂_edges hbetween)
  refine List.forall₂_iff_zip.mpr ⟨hlength, ?_⟩
  rintro ⟨message, index⟩ e he
  have hindex := List.snd_lt_of_mem_zipIdx (List.of_mem_zip he).1
  exact ⟨Message.link_edge? (hedges he), Message.runsStraight_edge? hd (by omega) (hedges he)⟩

end Edges

namespace Reading

/-- In the scene of a script with at most 10000 line feeds every message has its edge, and the edge of a
message between two participants is a straight line at the height of the message, from beside the lifeline
of the sender to beside the lifeline of the receiver. -/
theorem ofText_runsStraight (text : String) (hlines : text.toList.count '\n' ≤ 10000) :
  let d := (ofText text).model.sequence
  let scene := (ofText text).model.scene .sequence .standard
  List.Forall₂ (fun (m : Message × ℕ) e => e.link = m.1.link ∧ (m.1.sender ≠ m.1.receiver →
      m.1.RunsStraight .standard scene.lifelines m.2 e))
    d.messages.zipIdx scene.edges
  := by
  have hsize := hasAtMost_ofText text
  apply SequenceDiagram.forall₂_runsStraight
  · exact hsize.participants.trans (by omega)
  · exact hsize.messages.trans (by omega)
  · intro m hm
    exact isBetween_ofText .sequence .standard text m.link (List.mem_map_of_mem hm)

/-- A script with messages in both directions and one to its sender. -/
def facingScript : String :=
  "A -> B: ask\nB -> B: think\nC -> A: tell"

/-- The messages of the facing script run straight. -/
theorem ofText_runsStraight_facingScript :
  let d := (ofText facingScript).model.sequence
  let scene := (ofText facingScript).model.scene .sequence .standard
  facingScript.toList.count '\n' ≤ 10000
    ∧ d.messages.map (fun m => (m.sender, m.receiver)) = [("A", "B"), ("B", "B"), ("C", "A")]
    ∧ List.Forall₂ (fun (m : Message × ℕ) e => e.link = m.1.link ∧ (m.1.sender ≠ m.1.receiver →
        m.1.RunsStraight .standard scene.lifelines m.2 e))
      d.messages.zipIdx scene.edges
  := by
  have hlines : facingScript.toList.count '\n' ≤ 10000 := by decide +kernel
  exact ⟨hlines, by decide +kernel, ofText_runsStraight facingScript hlines⟩

end Reading

end DiagramLayout
