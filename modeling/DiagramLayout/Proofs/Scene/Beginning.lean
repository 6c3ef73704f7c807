import DiagramLayout.Proofs.Scene.Edges

/-!
# Later transitions leave earlier ones alone

What is drawn for a transition depends on the nodes and on the transitions before it. The nodes depend on
the states and, of the transitions, only on the directions in which they pass the pseudo state. So the
edges of a diagram stay as they are when it goes on.
-/

namespace DiagramLayout

/-- The diagrams have the same states, and the second one goes on with transitions behind those of the
first one, which pass the pseudo state in no new direction. -/
structure StateDiagram.IsBeginningOf (d e : StateDiagram) : Prop where
  states : d.states = e.states
  transitions : d.transitions <+: e.transitions
  initial : (∃ t ∈ d.transitions, t.source = "*") ↔ ∃ t ∈ e.transitions, t.source = "*"
  final : (∃ t ∈ d.transitions, t.target = "*") ↔ ∃ t ∈ e.transitions, t.target = "*"

namespace StateCanvas

variable (settings : Settings) (nodes : Catalog Node) (c : StateCanvas)

/-- The edge that is drawn for a transition, none when one of its ends has no node. -/
def edge? (t : Transition) : Option Edge :=
  match nodes.find? t.sourceId, nodes.find? t.targetId with
  | some source, some target => some (c.draw settings nodes t source target).1
  | _, _ => none

/-- The canvas behind a transition. -/
def next (t : Transition) : StateCanvas :=
  match nodes.find? t.sourceId, nodes.find? t.targetId with
  | some source, some target => (c.draw settings nodes t source target).2
  | _, _ => c

/-- The canvas behind transitions that are drawn in order. -/
def after (past : List Transition) : StateCanvas :=
  past.foldl (next settings nodes) c

/-- The edges behind a transition are drawn from the canvas that it leaves. -/
theorem edges_cons (t : Transition) (rest : List Transition) :
  c.edges settings nodes (t :: rest)
    = (c.edge? settings nodes t).toList ++ (c.next settings nodes t).edges settings nodes rest
  := by
  rw [edges, edge?, next]
  cases nodes.find? t.sourceId with
  | none => rfl
  | some source =>
    cases nodes.find? t.targetId with
    | none => rfl
    | some target => rfl

/-- The first transitions are drawn as if there were no others, and the others on what these leave. -/
theorem edges_append (past rest : List Transition) :
  c.edges settings nodes (past ++ rest)
    = c.edges settings nodes past ++ (c.after settings nodes past).edges settings nodes rest
  := by
  induction past generalizing c with
  | nil => rfl
  | cons t past ih =>
    rw [List.cons_append, edges_cons, edges_cons, ih, List.append_assoc]
    rfl

end StateCanvas

namespace StateDiagram

variable {d e : StateDiagram}

namespace IsBeginningOf

variable (h : d.IsBeginningOf e) (s : StateSettings)

include h

/-- The longer diagram has an initial marker when the shorter one has. -/
theorem hasInitial :
  StateSettings.hasInitial d = StateSettings.hasInitial e
  := by
  rw [Bool.eq_iff_iff, hasInitial_iff, hasInitial_iff]
  exact h.initial

theorem hasFinal :
  StateSettings.hasFinal d = StateSettings.hasFinal e
  := by
  rw [Bool.eq_iff_iff, hasFinal_iff, hasFinal_iff]
  exact h.final

/-- Both diagrams have the same states in the same places. -/
theorem stateNodes :
  s.stateNodes d = s.stateNodes e
  := by
  rw [StateSettings.stateNodes, StateSettings.stateNodes, h.states]

theorem nodes :
  s.nodes d = s.nodes e
  := by
  rw [StateSettings.nodes, StateSettings.nodes, h.stateNodes, h.hasInitial, h.hasFinal]

theorem canvasWidth :
  s.canvasWidth d = s.canvasWidth e
  := by
  rw [StateSettings.canvasWidth, StateSettings.canvasWidth, h.stateNodes, h.hasFinal]

theorem canvasHeight :
  s.canvasHeight d = s.canvasHeight e
  := by
  rw [StateSettings.canvasHeight, StateSettings.canvasHeight, h.stateNodes]

end IsBeginningOf

/-- When a diagram goes on, its edges stay the first ones, and everything but the edges stays the
same. -/
theorem edges_prefix_of_isBeginningOf (h : d.IsBeginningOf e) (settings : Settings) :
  (d.scene settings).edges <+: (e.scene settings).edges
    ∧ (d.scene settings).frame = (e.scene settings).frame
  := by
  constructor
  · obtain ⟨later, htransitions⟩ := h.transitions
    change StateCanvas.initial.edges settings (settings.state.nodes d) d.transitions
      <+: StateCanvas.initial.edges settings (settings.state.nodes e) e.transitions
    rw [← htransitions, StateCanvas.edges_append, h.nodes]
    apply List.prefix_append
  · rw [scene, scene, h.nodes, h.canvasWidth, h.canvasHeight]
    rfl

/-- Two states, with a transition between them. -/
def shortScript : String :=
  "[*] -> [A]\n[A] -> [B] : on"

/-- The diagram of `shortScript`, with transitions behind the others. -/
def longScript : String :=
  "[*] -> [A]\n[A] -> [B] : on\n[B] -> [A] : off\n[A] -> [B] : again"

/-- The longer script begins with the edges of the shorter one. -/
theorem edges_prefix_longScript :
  let d := (Reading.ofText shortScript).model.state
  let e := (Reading.ofText longScript).model.state
  d.IsBeginningOf e ∧ (d.scene .standard).edges <+: (e.scene .standard).edges
    ∧ (d.scene .standard).frame = (e.scene .standard).frame
  := by
  intro d e
  have h : d.IsBeginningOf e := by
    constructor
    case states =>
      apply NameSet.ext
      decide +kernel
    case transitions => decide +kernel
    case initial => decide +kernel
    case final => decide +kernel
  exact ⟨h, edges_prefix_of_isBeginningOf h .standard⟩

end StateDiagram

end DiagramLayout
