import DiagramLayout.Proofs.Scene.Attached.State
import DiagramLayout.Proofs.Scene.Rows
import DiagramLayout.Report.Scene

/-!
# The labels in reports

What a scene or an edge does not have is left out of its report, and a label is placed only on a path
that has a segment. The paths of transitions and messages always have one, those that lead back to their
own box included. So no label is lost between the text and the report.
-/

namespace DiagramLayout

/-! ### Reading a report -/

namespace Json

/-- The value of a field of an object. -/
def field? (value : Json) (name : String) : Option Json :=
  match value with
  | object fields => fields.lookup name
  | _ => none

/-- The items of an array. -/
def items : Json → List Json
  | array items => items
  | _ => []

/-- An optional field is found under its own name, and only if it has a value. -/
theorem lookup_optional (name other : String) (value : Option Json) :
  (optional name value).lookup other = if other = name then value else none
  := by
  cases value with
  | none => exact (ite_self none).symm
  | some v =>
    rw [optional, List.lookup_cons]
    by_cases h : other = name
    · rw [if_pos h, beq_iff_eq.mpr h]
    · rw [if_neg h, beq_false_of_ne h]
      rfl

end Json

namespace Report

/-- The entries for edges in the report of a scene. -/
def edges (report : Json) : List Json :=
  ((report.field? "edges").map Json.items).getD []

/-- The entry is that of an edge with an id and at least two points. -/
structure IsEdge (entry : Json) (id : String) : Prop where
  id : entry.field? "id" = some (.string id)
  points : ∃ points, entry.field? "points" = some (.array points) ∧ 2 ≤ points.length

/-- The entry has a label with exactly this text. -/
def HasLabel (entry : Json) (text : String) : Prop :=
  ∃ label, entry.field? "label" = some label ∧ label.field? "text" = some (.string text)

/-- The entry has a label with exactly this text and with a rectangle. -/
def HasBoxedLabel (entry : Json) (text : String) : Prop :=
  ∃ label box, entry.field? "label" = some label ∧ label.field? "text" = some (.string text)
    ∧ label.field? "rect" = some (.object (rect box))

/-- The report has the edges of its scene. -/
theorem edges_sceneOf (r : Reading) (s : Scene) :
  edges (sceneOf r s) = s.edges.map edge
  := rfl

variable {e : Edge}

/-- An edge with two points is reported as an edge. -/
theorem isEdge_edge (h : 2 ≤ e.points.length) :
  IsEdge (edge e) e.id
  := ⟨rfl, e.points.map point, rfl, by rwa [List.length_map]⟩

/-- The label of an edge is reported. -/
theorem field?_label_edge (e : Edge) :
  (edge e).field? "label" = e.label.map edgeLabel
  := by
  simp only [edge, Json.field?, List.lookup_append, Json.lookup_optional]
  simp [List.lookup]

theorem field?_rect_edgeLabel (l : EdgeLabel) :
  (edgeLabel l).field? "rect" = l.box.map fun box => .object (rect box)
  := by
  simp only [edgeLabel, Json.field?, List.lookup_append, Json.lookup_optional]
  simp [List.lookup]

/-- The text of a label is reported. -/
theorem hasLabel_edge {l : EdgeLabel} (h : e.label = some l) :
  HasLabel (edge e) l.text
  := by
  refine ⟨edgeLabel l, ?_, rfl⟩
  rw [field?_label_edge, h]
  rfl

/-- The text of a label is reported with its box. -/
theorem hasBoxedLabel_edge {l : EdgeLabel} {box : Rect} (h : e.label = some l)
    (hbox : l.box = some box) :
  HasBoxedLabel (edge e) l.text
  := by
  refine ⟨edgeLabel l, box, ?_, rfl, ?_⟩
  · rw [field?_label_edge, h]
    rfl
  · rw [field?_rect_edgeLabel, hbox]
    rfl

end Report

/-! ### Labels of edges -/

section Edges

open SequenceSettings (standard)

/-- The edge of a message has the text of the message as its label, and at least two points. -/
theorem Message.label_edge? {d : SequenceDiagram} {message : Message} {index : ℕ} {e : Edge}
    (hd : d.participants.size ≤ 20002) (hindex : index ≤ 20002)
    (h : message.edge? .standard (standard.nodes d) index = some e) :
  e.id = message.id ∧ 2 ≤ e.points.length ∧ ∃ position, e.label = some ⟨message.text, position, none⟩
  := by
  rw [edge?] at h
  split at h
  case h_2 => contradiction
  case h_1 source target hsource htarget =>
    split_ifs at h
    · obtain rfl := Option.some.inj h
      exact ⟨rfl, Nat.le_add_left 2 2, _, rfl⟩
    · obtain rfl := Option.some.inj h
      obtain ⟨hlength, -⟩ := rowEdge_arrives hd hindex (Catalog.mem_values_of_find? hsource)
        (Catalog.mem_values_of_find? htarget) message
      exact ⟨rfl, hlength, _, rfl⟩

/-- In a diagram of moderate size every message between participants is drawn with its text. -/
theorem SequenceDiagram.forall₂_label {d : SequenceDiagram} (hd : d.participants.size ≤ 20002)
    (hmessages : d.messages.length ≤ 20002)
    (hbetween : ∀ m ∈ d.messages, m.link.IsBetween (d.scene .standard).nodes.keys) :
  List.Forall₂ (fun (m : Message) e => e.id = m.id ∧ 2 ≤ e.points.length
      ∧ ∃ position, e.label = some ⟨m.text, position, none⟩)
    d.messages (d.scene .standard).edges
  := by
  obtain ⟨hlength, hedges⟩ := List.forall₂_iff_zip.mp (forall₂_edges hbetween)
  have hdrawn : List.Forall₂ (fun (m : Message × ℕ) e => e.id = m.1.id ∧ 2 ≤ e.points.length
      ∧ ∃ position, e.label = some ⟨m.1.text, position, none⟩)
      d.messages.zipIdx (d.scene .standard).edges := by
    refine List.forall₂_iff_zip.mpr ⟨hlength, ?_⟩
    rintro ⟨message, index⟩ e he
    have hindex := List.snd_lt_of_mem_zipIdx (List.of_mem_zip he).1
    exact Message.label_edge? hd (by omega) (hedges he)
  rw [← List.zipIdx_map_fst 0 d.messages]
  exact List.forall₂_map_left_iff.mpr hdrawn

/-- In a diagram of moderate size every transition between nodes is drawn with its label and a box for
it, unless the label is empty. -/
theorem StateDiagram.forall₂_label {d : StateDiagram} (hd : d.states.size ≤ 20002)
    (htransitions : d.transitions.length ≤ 10001)
    (hbetween : ∀ t ∈ d.transitions, t.link.IsBetween (d.scene .standard).nodes.keys) :
  List.Forall₂ (fun (t : Transition) e => e.id = t.id ∧ 2 ≤ e.points.length
      ∧ (t.label ≠ "" → ∃ position box, e.label = some ⟨t.label, position, some box⟩)
      ∧ (t.label = "" → e.label = none))
    d.transitions (d.scene .standard).edges
  := by
  have hindexed := areIndexed_scene { (default : Model) with state := d } .state .standard
  have hlength : (d.scene .standard).edges.length = d.transitions.length :=
    StateCanvas.length_edges hindexed hbetween _
  refine List.forall₂_iff_get.mpr ⟨hlength.symm, ?_⟩
  intro i hi hi'
  obtain ⟨c, source, target, -, -, hdraw, hlane⟩ := exists_draw_scene hd htransitions hbetween i hi
  have hedge := (List.getElem?_eq_some_iff.mp hdraw).2
  rw [List.get_eq_getElem, List.get_eq_getElem, hedge]
  exact ⟨rfl, hlane.two_le, StateCanvas.label_draw hlane.two_le⟩

end Edges

/-! ### Labels of entries -/

/-- The entry is that of the transition: it has the label with a rectangle, or no label where that of
the transition is empty. -/
structure Transition.IsReportedBy (t : Transition) (entry : Json) : Prop where
  edge : Report.IsEdge entry t.id
  label : t.label ≠ "" → Report.HasBoxedLabel entry t.label
  noLabel : t.label = "" → entry.field? "label" = none

/-- The entry is that of the message and has its text as label. -/
structure Message.IsReportedBy (m : Message) (entry : Json) : Prop where
  edge : Report.IsEdge entry m.id
  label : Report.HasLabel entry m.text

namespace Reading

/-- In the reports of a script with at most 10000 line feeds every transition and every message has an
entry of its own with its label. -/
theorem ofText_keepsLabels (text : String) (hlines : text.toList.count '\n' ≤ 10000) :
  let r := ofText text
  List.Forall₂ Transition.IsReportedBy r.model.state.transitions
      (Report.edges (Report.sceneOf r (r.model.scene .state .standard)))
    ∧ List.Forall₂ Message.IsReportedBy r.model.sequence.messages
      (Report.edges (Report.sceneOf r (r.model.scene .sequence .standard)))
  := by
  have hsize := hasAtMost_ofText text
  constructor
  · rw [Report.edges_sceneOf, List.forall₂_map_right_iff]
    refine (StateDiagram.forall₂_label (hsize.states.trans (by omega))
      (hsize.transitions.trans (by omega)) fun t ht =>
        isBetween_ofText .state .standard text t.link (List.mem_map_of_mem ht)).imp ?_
    rintro t e ⟨hid, hlength, hlabel, hnone⟩
    constructor
    case edge => exact hid ▸ Report.isEdge_edge hlength
    case label =>
      intro hne
      obtain ⟨position, box, hlabel⟩ := hlabel hne
      exact Report.hasBoxedLabel_edge hlabel rfl
    case noLabel =>
      intro hempty
      rw [Report.field?_label_edge, hnone hempty]
      rfl
  · rw [Report.edges_sceneOf, List.forall₂_map_right_iff]
    refine (SequenceDiagram.forall₂_label (hsize.participants.trans (by omega))
      (hsize.messages.trans (by omega)) fun m hm =>
        isBetween_ofText .sequence .standard text m.link (List.mem_map_of_mem hm)).imp ?_
    rintro m e ⟨hid, hlength, position, hlabel⟩
    constructor
    case edge => exact hid ▸ Report.isEdge_edge hlength
    case label => exact Report.hasLabel_edge hlabel

/-- A script with a transition without a label, and with a transition and a message that lead back. -/
def labelledScript : String :=
  "[*] -> [Idle]\n[Idle] -> [Idle] : again\nA -> A: think\nA -> B: hello"

/-- The labels of the script are in its reports. -/
theorem ofText_keepsLabels_labelledScript :
  let r := ofText labelledScript
  labelledScript.toList.count '\n' ≤ 10000
    ∧ r.model.state.transitions.map Transition.label = ["", "again"]
    ∧ r.model.sequence.messages.map Message.text = ["think", "hello"]
    ∧ List.Forall₂ Transition.IsReportedBy r.model.state.transitions
      (Report.edges (Report.sceneOf r (r.model.scene .state .standard)))
    ∧ List.Forall₂ Message.IsReportedBy r.model.sequence.messages
      (Report.edges (Report.sceneOf r (r.model.scene .sequence .standard)))
  := by
  have hlines : labelledScript.toList.count '\n' ≤ 10000 := by decide +kernel
  obtain ⟨htransitions, hmessages⟩ := ofText_keepsLabels labelledScript hlines
  exact ⟨hlines, by decide +kernel, by decide +kernel, htransitions, hmessages⟩

end Reading

end DiagramLayout
