import DiagramLayout.Proofs.Script.WellFormed
import DiagramLayout.Report.Scene

/-!
# The edges of a scene

A link of a diagram asks for an edge between two nodes. A scene draws the links both of whose ends have
a node, in their order, and nothing else. Of a model that is read from a text it draws every link.
-/

namespace DiagramLayout

/-! ### Links -/

/-- What asks for an edge: its id and the ids of the nodes at its ends. -/
structure Link where
  id : String
  source : String
  target : String
deriving DecidableEq

namespace Link

/-- Whether both ends of the link are among the ids of some nodes. -/
def IsBetween (l : Link) (ids : List String) : Prop :=
  l.source ∈ ids ∧ l.target ∈ ids

instance (l : Link) (ids : List String) : Decidable (l.IsBetween ids) :=
  inferInstanceAs (Decidable (_ ∧ _))

end Link

/-- The link that the edge draws. -/
def Edge.link (e : Edge) : Link :=
  ⟨e.id, e.source, e.target⟩

/-- An association links the node of an actor to the node of a use case. -/
def Association.link (a : Association) : Link :=
  ⟨a.id, "actor:" ++ a.actor, "usecase:" ++ a.useCase⟩

/-- A message links two participants. -/
def Message.link (m : Message) : Link :=
  ⟨m.id, m.sender, m.receiver⟩

/-- A relation links two classes. -/
def ClassRelation.link (r : ClassRelation) : Link :=
  ⟨r.id, r.source, r.target⟩

/-- A transition links two states, or one of the nodes of the pseudo state. -/
def Transition.link (t : Transition) : Link :=
  ⟨t.id, if t.source = "*" then "__start" else t.source,
    if t.target = "*" then "__end" else t.target⟩

namespace Model

/-- The links of the diagram of a kind, in order. -/
def links (m : Model) : DiagramKind → List Link
  | .useCase => m.useCase.associations.map Association.link
  | .sequence => m.sequence.messages.map Message.link
  | .classes => m.classes.relations.map ClassRelation.link
  | .state => m.state.transitions.map Transition.link

/-- The ids of the nodes of the diagram of a kind. The pseudo state has a node for each of the directions
in which transitions pass it. -/
def nodeIds (m : Model) : DiagramKind → List String
  | .useCase =>
    m.useCase.actors.toList.map ("actor:" ++ ·) ++ m.useCase.useCases.toList.map ("usecase:" ++ ·)
  | .sequence => m.sequence.participants.toList
  | .classes => m.classes.classes.keys
  | .state =>
    m.state.states.toList
      ++ (if ∃ t ∈ m.state.transitions, t.source = "*" then ["__start"] else [])
      ++ (if ∃ t ∈ m.state.transitions, t.target = "*" then ["__end"] else [])

end Model

/-- The scene has nodes with these ids and an edge for each link between two of them, in the order of the
links, and no others; the edges end at nodes. -/
structure Scene.DrawsLinks (s : Scene) (ids : List String) (links : List Link) : Prop where
  nodes : ∀ id, id ∈ s.nodes.keys ↔ id ∈ ids
  edges : s.edges.map Edge.link = links.filter (·.IsBetween ids)
  ends : ∀ e ∈ s.edges, e.source ∈ s.nodes.keys ∧ e.target ∈ s.nodes.keys

/-- What a scene is without its edges. -/
def Scene.frame (s : Scene) : Scene :=
  { s with edges := [] }

theorem Scene.nodes_frame (s : Scene) :
  s.frame.nodes = s.nodes
  := rfl

/-- Scenes with one frame and the same edges are equal. -/
theorem Scene.eq_of_frame_eq {s t : Scene} (hframe : s.frame = t.frame) (hedges : s.edges = t.edges) :
  s = t
  := by
  have hparts : { s.frame with edges := s.edges } = { t.frame with edges := t.edges } := by
    rw [hframe, hedges]
  exact hparts

/-! ### Nodes -/

namespace Node

variable {nodes : Catalog Node} {n : Node} {id : String}

/-- Every node stands under its id. -/
def AreIndexed (nodes : Catalog Node) : Prop :=
  ∀ e ∈ nodes.entries, e.2.id = e.1

/-- A node stands under its own id. -/
theorem AreIndexed.id_eq (h : AreIndexed nodes) (hfind : nodes.find? id = some n) :
  n.id = id
  := h (id, n) (Catalog.find?_eq_some_iff.mp hfind)

/-- A node that is put under its own id keeps the nodes indexed. -/
theorem AreIndexed.put (h : AreIndexed nodes) (hid : n.id = id) :
  AreIndexed (nodes.put id n)
  := Catalog.forall_entries_put (P := fun id (n : Node) => n.id = id) hid h

/-- A catalog of nodes has each of them under its id. -/
theorem areIndexed_catalog (list : List Node) :
  AreIndexed (catalog list)
  := by
  apply Catalog.forall_entries_ofList (P := fun id (n : Node) => n.id = id)
  intro e he
  obtain ⟨n, -, rfl⟩ := List.mem_map.mp he
  rfl

theorem mem_keys_catalog {list : List Node} :
  id ∈ (catalog list).keys ↔ id ∈ list.map Node.id
  := by
  rw [catalog, Catalog.mem_keys_ofList, List.map_map]
  rfl

/-- The ids of nodes that are given for names in order. -/
theorem map_id_mapIdx (names : List String) (idOf : String → String) {node : ℕ → String → Node}
    (h : ∀ index name, (node index name).id = idOf name) :
  (names.mapIdx node).map Node.id = names.map idOf
  := by
  apply List.ext_getElem
  · simp
  · intro index _ _
    rw [List.getElem_map, List.getElem_mapIdx, List.getElem_map, h]

end Node

/-! ### Drawing links -/

section Drawing

variable {nodes : Catalog Node} {settings : Settings} {l : Link}

/-- A link between two nodes that are found is between nodes. -/
theorem isBetween_of_find? {source target : Node} (hsource : nodes.find? l.source = some source)
    (htarget : nodes.find? l.target = some target) :
  l.IsBetween nodes.keys
  := ⟨Catalog.exists_find?_iff.mp ⟨source, hsource⟩, Catalog.exists_find?_iff.mp ⟨target, htarget⟩⟩

/-- A link of which an end is not found is not between nodes. -/
theorem not_isBetween_of_find? (h : ∀ source target, nodes.find? l.source = some source →
    nodes.find? l.target = some target → False) :
  ¬l.IsBetween nodes.keys
  := by
  rintro ⟨hsource, htarget⟩
  obtain ⟨source, hsource⟩ := Catalog.exists_find?_iff.mpr hsource
  obtain ⟨target, htarget⟩ := Catalog.exists_find?_iff.mpr htarget
  exact h source target hsource htarget

/-- An association is drawn as it links, when both ends are nodes. -/
theorem Association.map_link_edge? (h : Node.AreIndexed nodes) (a : Association) :
  (a.edge? settings nodes).map Edge.link
    = if a.link.IsBetween nodes.keys then some a.link else none
  := by
  rw [Association.edge?]
  split
  · rename_i actor useCase hactor huseCase
    rw [if_pos (isBetween_of_find? hactor huseCase)]
    change some (Link.mk a.id actor.id useCase.id) = _
    rw [h.id_eq hactor, h.id_eq huseCase]
    rfl
  · rename_i hnone
    rw [if_neg (not_isBetween_of_find? hnone), Option.map_none]

/-- A message is drawn as it links, when both ends are nodes. -/
theorem Message.map_link_edge? (m : Message) (index : ℕ) :
  (m.edge? settings nodes index).map Edge.link
    = if m.link.IsBetween nodes.keys then some m.link else none
  := by
  rw [Message.edge?]
  split
  · rename_i source target hsource htarget
    rw [if_pos (isBetween_of_find? hsource htarget)]
    split_ifs
    all_goals rfl
  · rename_i hnone
    rw [if_neg (not_isBetween_of_find? hnone), Option.map_none]

/-- A relation is drawn as it links, when both ends are nodes. -/
theorem ClassRelation.map_link_edge? (h : Node.AreIndexed nodes) (slots : Catalog Slot)
    (r : ClassRelation) :
  (r.edge? settings nodes slots).map Edge.link
    = if r.link.IsBetween nodes.keys then some r.link else none
  := by
  rw [ClassRelation.edge?]
  split
  · rename_i source target hsource htarget
    rw [if_pos (isBetween_of_find? hsource htarget)]
    change some (Link.mk r.id source.id target.id) = _
    rw [h.id_eq hsource, h.id_eq htarget]
    rfl
  · rename_i hnone
    rw [if_neg (not_isBetween_of_find? hnone), Option.map_none]

/-- When something is drawn for each item, what is drawn stands in the order of the items. -/
theorem forall₂_filterMap {α β : Type} {items : List α} {draw? : α → Option β}
    (h : ∀ a ∈ items, ∃ b, draw? a = some b) :
  List.Forall₂ (fun a b => draw? a = some b) items (items.filterMap draw?)
  := by
  induction items with
  | nil => exact .nil
  | cons a rest ih =>
    obtain ⟨⟨b, hb⟩, hrest⟩ := List.forall_mem_cons.mp h
    rw [List.filterMap_cons_some hb]
    exact .cons hb (ih hrest)

/-- When each item draws its link or nothing, together they draw the links between nodes in order. -/
theorem map_link_filterMap {α : Type} (items : List α) {edge? : α → Option Edge} {link : α → Link}
    (h : ∀ a, (edge? a).map Edge.link
      = if (link a).IsBetween nodes.keys then some (link a) else none) :
  (items.filterMap edge?).map Edge.link = (items.map link).filter (·.IsBetween nodes.keys)
  := by
  rw [List.map_filterMap, ← List.filterMap_eq_filter, List.filterMap_map]
  congr 1
  funext a
  rw [h a]
  simp only [Function.comp, Option.guard, decide_eq_true_eq]

theorem Transition.sourceId_eq (t : Transition) :
  t.sourceId = t.link.source
  := by
  simp only [sourceId, isInitial, beq_iff_eq]
  rfl

theorem Transition.targetId_eq (t : Transition) :
  t.targetId = t.link.target
  := by
  simp only [targetId, isFinal, beq_iff_eq]
  rfl

/-- Whatever has been drawn before, transitions draw the links between nodes in order. -/
theorem StateCanvas.map_link_edges (h : Node.AreIndexed nodes) (c : StateCanvas)
    (transitions : List Transition) :
  (c.edges settings nodes transitions).map Edge.link
    = (transitions.map Transition.link).filter (·.IsBetween nodes.keys)
  := by
  induction transitions generalizing c with
  | nil => rfl
  | cons t rest ih =>
    rw [edges, Transition.sourceId_eq, Transition.targetId_eq, List.map_cons, List.filter_cons]
    split
    · rename_i source target hsource htarget
      rw [if_pos (decide_eq_true (isBetween_of_find? hsource htarget)), List.map_cons, ih]
      change Link.mk t.id source.id target.id :: _ = _
      rw [h.id_eq hsource, h.id_eq htarget]
      rfl
    · rename_i hnone
      rw [if_neg (mt of_decide_eq_true (not_isBetween_of_find? hnone)), ih]

end Drawing

/-! ### Scenes -/

variable (m : Model) (kind : DiagramKind) (settings : Settings)

/-- Every scene has its nodes under their ids. -/
theorem areIndexed_scene :
  Node.AreIndexed (m.scene kind settings).nodes
  := by
  cases kind with
  | useCase => apply Node.areIndexed_catalog
  | sequence => apply Node.areIndexed_catalog
  | classes => apply Node.areIndexed_catalog
  | state =>
    have hstates : Node.AreIndexed (settings.state.stateNodes m.state) := Node.areIndexed_catalog _
    change Node.AreIndexed (settings.state.nodes m.state)
    have hinitial : settings.state.initialNode.id = StateSettings.initialId := rfl
    have hfinal : (settings.state.finalNode (settings.state.stateNodes m.state)).id
        = StateSettings.finalId := rfl
    simp only [StateSettings.nodes]
    split_ifs
    · exact (hstates.put hinitial).put hfinal
    · exact hstates.put hfinal
    · exact hstates.put hinitial
    · exact hstates

/-- There is an initial marker when a transition begins at the star. -/
theorem hasInitial_iff {d : StateDiagram} :
  StateSettings.hasInitial d = true ↔ ∃ t ∈ d.transitions, t.source = "*"
  := by
  simp only [StateSettings.hasInitial, List.any_eq_true, Transition.isInitial, beq_iff_eq]
  rfl

/-- There is a final marker when a transition ends at the star. -/
theorem hasFinal_iff {d : StateDiagram} :
  StateSettings.hasFinal d = true ↔ ∃ t ∈ d.transitions, t.target = "*"
  := by
  simp only [StateSettings.hasFinal, List.any_eq_true, Transition.isFinal, beq_iff_eq]
  rfl

/-- The nodes are the states and the markers that are needed. -/
theorem mem_keys_stateNodes (d : StateDiagram) (id : String) :
  id ∈ (settings.state.nodes d).keys
    ↔ id ∈ d.states ∨ StateSettings.hasInitial d = true ∧ id = StateSettings.initialId
      ∨ StateSettings.hasFinal d = true ∧ id = StateSettings.finalId
  := by
  have hstates : id ∈ (settings.state.stateNodes d).keys ↔ id ∈ d.states := by
    rw [StateSettings.stateNodes, Node.mem_keys_catalog,
      Node.map_id_mapIdx d.states.toList (fun name => name) fun _ _ => rfl,
      List.map_id']
    rfl
  simp only [StateSettings.nodes]
  split_ifs with hfinal hinitial hinitial
  all_goals simp [Catalog.mem_keys_put, hstates, hfinal, hinitial, or_assoc]

/-- The nodes of a scene have the ids that the model gives. -/
theorem mem_keys_scene (id : String) :
  id ∈ (m.scene kind settings).nodes.keys ↔ id ∈ m.nodeIds kind
  := by
  cases kind with
  | useCase =>
    change id ∈ (settings.useCase.nodes m.useCase).keys ↔ _
    rw [UseCaseSettings.nodes, Node.mem_keys_catalog, List.map_append,
      Node.map_id_mapIdx m.useCase.actors.toList UseCaseSettings.actorId fun _ _ => rfl,
      Node.map_id_mapIdx m.useCase.useCases.toList UseCaseSettings.useCaseId fun _ _ => rfl]
    rfl
  | sequence =>
    change id ∈ (settings.sequence.nodes m.sequence).keys ↔ _
    rw [SequenceSettings.nodes, Node.mem_keys_catalog,
      Node.map_id_mapIdx m.sequence.participants.toList (fun name => name) fun _ _ => rfl,
      List.map_id']
    rfl
  | classes =>
    change id ∈ (m.classes.nodes settings.classes).keys ↔ _
    simp only [ClassDiagram.nodes]
    rw [Node.mem_keys_catalog, List.map_map]
    rfl
  | state =>
    change id ∈ (settings.state.nodes m.state).keys ↔ _
    rw [mem_keys_stateNodes, hasInitial_iff, hasFinal_iff]
    simp only [Model.nodeIds, List.mem_append, List.mem_ite_nil_right, List.mem_singleton, or_assoc]
    rfl

/-- The edges of a scene draw the links between its nodes. -/
theorem map_link_scene :
  (m.scene kind settings).edges.map Edge.link
    = (m.links kind).filter (·.IsBetween (m.scene kind settings).nodes.keys)
  := by
  have hindexed := areIndexed_scene m kind settings
  cases kind with
  | useCase => exact map_link_filterMap m.useCase.associations (Association.map_link_edge? hindexed)
  | sequence =>
    have hlinks : m.links .sequence = m.sequence.messages.zipIdx.map fun e => e.1.link := by
      rw [Model.links, ← List.zipIdx_map_fst 0 m.sequence.messages, List.map_map, List.zipIdx_map_fst]
      rfl
    rw [hlinks]
    exact map_link_filterMap m.sequence.messages.zipIdx fun e => Message.map_link_edge? e.1 e.2
  | classes =>
    exact map_link_filterMap m.classes.relations (ClassRelation.map_link_edge? hindexed _)
  | state => exact StateCanvas.map_link_edges hindexed .initial m.state.transitions

variable {m} in
/-- In a well-formed model all links are between nodes. -/
theorem Model.IsWellFormed.isBetween (h : m.IsWellFormed) :
  ∀ l ∈ m.links kind, l.IsBetween (m.nodeIds kind)
  := by
  intro l hl
  cases kind with
  | useCase =>
    obtain ⟨a, ha, rfl⟩ := List.mem_map.mp hl
    exact ⟨List.mem_append_left _ (List.mem_map_of_mem (h.useCase.actor_mem a ha)),
      List.mem_append_right _ (List.mem_map_of_mem (h.useCase.useCase_mem a ha))⟩
  | sequence =>
    obtain ⟨message, hmessage, rfl⟩ := List.mem_map.mp hl
    exact ⟨h.sequence.sender_mem message hmessage, h.sequence.receiver_mem message hmessage⟩
  | classes =>
    obtain ⟨r, hr, rfl⟩ := List.mem_map.mp hl
    exact ⟨h.classes.source_mem r hr, h.classes.target_mem r hr⟩
  | state =>
    obtain ⟨t, ht, rfl⟩ := List.mem_map.mp hl
    have hsource := h.state.source_mem t ht
    have htarget := h.state.target_mem t ht
    constructor
    · rw [Model.nodeIds, List.mem_append, List.mem_append, Transition.link]
      left
      -- The star stands for the marker, which is among the nodes because this transition needs it.
      by_cases hpseudo : t.source = "*"
      · right
        rw [if_pos ⟨t, ht, hpseudo⟩, if_pos hpseudo]
        apply List.mem_singleton_self
      · left
        rw [if_neg hpseudo]
        exact hsource.resolve_left hpseudo
    · rw [Model.nodeIds, List.mem_append, List.mem_append, Transition.link]
      by_cases hpseudo : t.target = "*"
      · right
        rw [if_pos ⟨t, ht, hpseudo⟩, if_pos hpseudo]
        apply List.mem_singleton_self
      · left
        left
        rw [if_neg hpseudo]
        exact htarget.resolve_left hpseudo

/-- The links of the model of a text are between nodes of its scene. -/
theorem Reading.isBetween_ofText (text : String) :
  ∀ l ∈ (ofText text).model.links kind,
    l.IsBetween ((ofText text).model.scene kind settings).nodes.keys
  := by
  intro l hl
  have hread := isWellFormed_readFrom 1 (Script.lines text.toList)
  obtain ⟨hsource, htarget⟩ := hread.finish.model.isBetween kind l hl
  exact ⟨(mem_keys_scene _ kind settings l.source).mpr hsource,
    (mem_keys_scene _ kind settings l.target).mpr htarget⟩

/-- Every scene draws exactly the links of its model that are between nodes. Of the model of a text no
link is left out. -/
theorem scene_drawsLinks :
  (∀ m : Model, (m.scene kind settings).DrawsLinks (m.nodeIds kind) (m.links kind))
    ∧ ∀ text, ((Reading.ofText text).model.scene kind settings).edges.map Edge.link
      = (Reading.ofText text).model.links kind
  := by
  have hdraws : ∀ m : Model, (m.scene kind settings).DrawsLinks (m.nodeIds kind) (m.links kind) := by
    intro m
    have hkeys : ∀ l : Link,
        l.IsBetween (m.scene kind settings).nodes.keys ↔ l.IsBetween (m.nodeIds kind) := fun l =>
      and_congr (mem_keys_scene m kind settings l.source) (mem_keys_scene m kind settings l.target)
    refine ⟨mem_keys_scene m kind settings, ?_, ?_⟩
    · rw [map_link_scene]
      simp only [hkeys]
    · intro e he
      have hlink := List.mem_map_of_mem (f := Edge.link) he
      rw [map_link_scene, List.mem_filter] at hlink
      exact of_decide_eq_true hlink.2
  refine ⟨hdraws, ?_⟩
  intro text
  have hread := Reading.isWellFormed_readFrom 1 (Script.lines text.toList)
  rw [(hdraws _).edges, List.filter_eq_self]
  intro l hl
  exact decide_eq_true (hread.finish.model.isBetween kind l hl)

end DiagramLayout
