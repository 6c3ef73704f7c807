import DiagramLayout.Proofs.Scene.Edges

/-!
# The nodes of a state diagram

States and the two nodes of the pseudo state stand in one catalog. A state that has the id of a node of
the pseudo state loses its box to that node. In a diagram without such a state every state keeps its box,
and the pseudo state has a node for each of the directions in which transitions pass it.
-/

namespace DiagramLayout

/-- Every state has a box with its name, the pseudo state has one node where it is left and one where it
is entered, and there are no other nodes. -/
structure Scene.KeepsStates (s : Scene) (d : StateDiagram) : Prop where
  states : ∀ name ∈ d.states, ∃ n ∈ s.nodes.values, n.id = name ∧ n.label = name ∧ n.shape = .state
  initial : s.nodes.values.countP (·.shape = .initial)
    = if ∃ t ∈ d.transitions, t.source = "*" then 1 else 0
  final : s.nodes.values.countP (·.shape = .final)
    = if ∃ t ∈ d.transitions, t.target = "*" then 1 else 0
  size : s.nodes.size = d.states.size + (if ∃ t ∈ d.transitions, t.source = "*" then 1 else 0)
    + if ∃ t ∈ d.transitions, t.target = "*" then 1 else 0

namespace Node

/-- Nodes with distinct ids are the nodes of their catalog. -/
theorem values_catalog {list : List Node} (h : (list.map id).Nodup) :
  (catalog list).values = list
  := by
  rw [Catalog.values, catalog, Catalog.entries_ofList]
  · rw [List.map_map]
    apply List.map_id
  · rw [List.map_map]
    exact h

/-- A node is found under its id. -/
theorem AreIndexed.find?_id {nodes : Catalog Node} (h : AreIndexed nodes) {n : Node}
    (hn : n ∈ nodes.values) :
  nodes.find? n.id = some n
  := by
  obtain ⟨e, he, rfl⟩ := List.mem_map.mp hn
  rw [h e he]
  exact Catalog.find?_eq_some_iff.mpr he

end Node

namespace StateSettings

variable (s : StateSettings) (d : StateDiagram)

theorem map_id_stateNode :
  (d.states.toList.mapIdx (s.stateNode (Scene.columns d.states.size))).map Node.id
    = d.states.toList
  := by
  rw [Node.map_id_mapIdx d.states.toList (fun name => name) fun _ _ => rfl, List.map_id']

/-- There is one node for each state, in the order of the states. -/
theorem values_stateNodes :
  (s.stateNodes d).values = d.states.toList.mapIdx (s.stateNode (Scene.columns d.states.size))
  := by
  apply Node.values_catalog
  rw [map_id_stateNode]
  exact d.states.nodup

theorem find?_stateNodes {id : String} (h : id ∉ d.states) :
  (s.stateNodes d).find? id = none
  := by
  rw [Catalog.find?_eq_none_iff, stateNodes, Node.mem_keys_catalog, map_id_stateNode]
  exact h

variable {d}

/-- Where no state has the id of a node of the pseudo state, that node stands behind the states. -/
theorem values_nodes (hinitial : hasInitial d = true → initialId ∉ d.states)
    (hfinal : hasFinal d = true → finalId ∉ d.states) :
  (s.nodes d).values
    = d.states.toList.mapIdx (s.stateNode (Scene.columns d.states.size))
      ++ (if hasInitial d then [s.initialNode] else [])
      ++ if hasFinal d then [s.finalNode (s.stateNodes d)] else []
  := by
  have hput : ∀ {nodes : Catalog Node} {id : String} (n : Node), nodes.find? id = none →
      (nodes.put id n).values = nodes.values ++ [n] := by
    intro nodes id n h
    rw [Catalog.values, Catalog.entries_put_of_find?_eq_none h, List.map_append]
    rfl
  rw [← values_stateNodes]
  simp only [nodes]
  split_ifs with hf hi hi
  · rw [hput, hput _ (s.find?_stateNodes d (hinitial hi))]
    rw [Catalog.find?_put, if_neg (by decide)]
    apply s.find?_stateNodes d (hfinal hf)
  · rw [hput _ (s.find?_stateNodes d (hfinal hf)), List.append_nil]
  · rw [hput _ (s.find?_stateNodes d (hinitial hi)), List.append_nil]
  · rw [List.append_nil, List.append_nil]

/-- The initial marker stands under its own id, also when a state has this name. -/
theorem find?_initialId (h : hasInitial d = true) :
  (s.nodes d).find? initialId = some s.initialNode
  := by
  simp only [nodes]
  split_ifs
  · rw [Catalog.find?_put, if_neg (by decide), Catalog.find?_put, if_pos rfl]
  · rw [Catalog.find?_put, if_pos rfl]

/-- The final marker stands under its own id, also when a state has this name. -/
theorem find?_finalId (h : hasFinal d = true) :
  (s.nodes d).find? finalId = some (s.finalNode (s.stateNodes d))
  := by
  simp only [nodes]
  rw [if_pos h, Catalog.find?_put, if_pos rfl]

end StateSettings

namespace StateDiagram

variable (d : StateDiagram) (settings : Settings)

/-- Two nodes cannot stand under one id: a state whose id another node has got is without a box. -/
theorem not_mem_states_of_find? {d : StateDiagram} {settings : Settings}
    (h : (d.scene settings).KeepsStates d) {id : String} {n : Node}
    (hfind : (d.scene settings).nodes.find? id = some n) (hshape : n.shape ≠ .state) :
  id ∉ d.states
  := by
  intro hmem
  obtain ⟨m, hm, rfl, -, hstate⟩ := h.states id hmem
  have hindexed := areIndexed_scene { (default : Model) with state := d } .state settings
  have hfound := hindexed.find?_id hm
  change (d.scene settings).nodes.find? m.id = some m at hfound
  rw [hfind] at hfound
  obtain rfl := Option.some.inj hfound
  exact hshape hstate

/-- A diagram keeps its states exactly when no state has the id of a node of the pseudo state that is
drawn. -/
theorem keepsStates_scene_iff :
  (d.scene settings).KeepsStates d
    ↔ ((∃ t ∈ d.transitions, t.source = "*") → "__start" ∉ d.states)
      ∧ ((∃ t ∈ d.transitions, t.target = "*") → "__end" ∉ d.states)
  := by
  rw [← hasInitial_iff, ← hasFinal_iff]
  constructor
  · intro h
    constructor
    · intro hinitial
      apply not_mem_states_of_find? h (settings.state.find?_initialId hinitial)
      simp [StateSettings.initialNode]
    · intro hfinal
      apply not_mem_states_of_find? h (settings.state.find?_finalId hfinal)
      simp [StateSettings.finalNode]
  · rintro ⟨hinitial, hfinal⟩
    have hvalues : (d.scene settings).nodes.values = _ :=
      settings.state.values_nodes hinitial hfinal
    -- The markers are counted by their shape, which no state has.
    have hshape : ∀ n ∈ d.states.toList.mapIdx
        (settings.state.stateNode (Scene.columns d.states.size)), n.shape = .state := by
      intro n hn
      obtain ⟨index, _, rfl⟩ := List.mem_mapIdx.mp hn
      rfl
    have hnone : ∀ shape, shape ≠ NodeShape.state → (d.states.toList.mapIdx
        (settings.state.stateNode (Scene.columns d.states.size))).countP (·.shape = shape) = 0 := by
      intro shape hne
      rw [List.countP_eq_zero]
      intro n hn
      rw [decide_eq_true_eq, hshape n hn]
      exact hne.symm
    constructor
    case states =>
      intro name hname
      rw [hvalues]
      obtain ⟨index, hindex, rfl⟩ := List.getElem_of_mem hname
      refine ⟨settings.state.stateNode (Scene.columns d.states.size) index _, ?_, rfl, rfl, rfl⟩
      apply List.mem_append_left
      apply List.mem_append_left
      exact List.mem_mapIdx.mpr ⟨index, hindex, rfl⟩
    case initial =>
      rw [hvalues, List.countP_append, List.countP_append, hnone _ (by decide)]
      simp only [← hasInitial_iff]
      split_ifs
      all_goals rfl
    case final =>
      rw [hvalues, List.countP_append, List.countP_append, hnone _ (by decide)]
      simp only [← hasFinal_iff]
      split_ifs
      all_goals rfl
    case size =>
      have hsize : (d.scene settings).nodes.size = (d.scene settings).nodes.values.length :=
        (List.length_map _).symm
      rw [hsize, hvalues, List.length_append, List.length_append, List.length_mapIdx]
      simp only [← hasInitial_iff, ← hasFinal_iff]
      split_ifs
      all_goals rfl

/-- A state that is named like the node of the pseudo state loses its box to it. -/
theorem not_keepsStates_start :
  ¬∀ text settings, ((Reading.ofText text).model.state.scene settings).KeepsStates
    (Reading.ofText text).model.state
  := by
  intro h
  have hinitial : StateSettings.hasInitial (Reading.ofText "[*] -> [__start]").model.state = true := by
    decide
  apply not_mem_states_of_find? (h "[*] -> [__start]" .standard)
    (StateSettings.find?_initialId _ hinitial)
  · simp [StateSettings.initialNode]
  · decide

end StateDiagram

end DiagramLayout
