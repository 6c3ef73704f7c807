import DiagramLayout.Proofs.Caption
import DiagramLayout.Proofs.Scene.Edges
import DiagramLayout.Proofs.Scene.Lane

/-!
# Drawing transitions one after another

The edge of a transition is drawn on what the transitions before it have left. Of their lanes nothing
but the directions of these transitions is seen.
-/

namespace DiagramLayout

/-- The ids of the nodes that the transition leads from and to. -/
def Transition.ends (t : Transition) : String × String :=
  (t.sourceId, t.targetId)

namespace StateCanvas

variable {settings : Settings} {nodes : Catalog Node}

theorem lanes_draw (h : Node.AreIndexed nodes) (c : StateCanvas) (t : Transition)
    {source target : Node} (hsource : nodes.find? t.sourceId = some source)
    (htarget : nodes.find? t.targetId = some target) :
  (c.draw settings nodes t source target).2.lanes = c.lanes.take t.sourceId t.targetId
  := by
  rw [← h.id_eq hsource, ← h.id_eq htarget]
  rfl

/-- On a path that has a segment, every label that is not empty gets a place and a box. -/
theorem label_draw {c : StateCanvas} {t : Transition} {source target : Node}
    (h : 2 ≤ (c.draw settings nodes t source target).1.points.length) :
  (t.label ≠ "" → ∃ position box,
      (c.draw settings nodes t source target).1.label = some ⟨t.label, position, some box⟩)
    ∧ (t.label = "" → (c.draw settings nodes t source target).1.label = none)
  := by
  have hlabel : (c.draw settings nodes t source target).1.label
      = (c.placer.choose? settings.caption t.label (c.route settings nodes source target)
          (nodes.values.map Node.box)).map fun place => ⟨t.label, place.center, some place.box⟩ := by
    rw [← CaptionPlacer.fst_place]
    rfl
  have hplace : (c.placer.choose? settings.caption t.label (c.route settings nodes source target)
      (nodes.values.map Node.box)).isSome = true ↔ _ := CaptionPlacer.isSome_choose?_iff
  rw [hlabel]
  constructor
  · intro hne
    obtain ⟨place, hplace⟩ := Option.isSome_iff_exists.mp (hplace.mpr ⟨hne, h⟩)
    rw [hplace]
    exact ⟨_, _, rfl⟩
  · intro hempty
    rw [Option.map_eq_none_iff, ← Option.not_isSome_iff_eq_none, hplace]
    exact fun h => h.1 hempty

/-- Where all transitions are between nodes, each one is drawn at its place, on a canvas whose lanes are
those behind the transitions in front of it. -/
theorem exists_draw (settings : Settings) (h : Node.AreIndexed nodes) {transitions : List Transition}
    (hbetween : ∀ t ∈ transitions, t.link.IsBetween nodes.keys) {c : StateCanvas}
    {past : List (String × String)} (hc : c.lanes = Lanes.after past) (i : ℕ)
    (hi : i < transitions.length) :
  ∃ (canvas : StateCanvas) (source target : Node), nodes.find? transitions[i].sourceId = some source
    ∧ nodes.find? transitions[i].targetId = some target
    ∧ canvas.lanes = Lanes.after (past ++ (transitions.take i).map Transition.ends)
    ∧ (c.edges settings nodes transitions)[i]?
      = some (canvas.draw settings nodes transitions[i] source target).1
  := by
  induction transitions generalizing c past i with
  | nil => contradiction
  | cons t rest ih =>
    obtain ⟨⟨hsourceKey, htargetKey⟩, hrest⟩ := List.forall_mem_cons.mp hbetween
    obtain ⟨source, hsource⟩ := Catalog.exists_find?_iff.mpr hsourceKey
    obtain ⟨target, htarget⟩ := Catalog.exists_find?_iff.mpr htargetKey
    rw [← Transition.sourceId_eq] at hsource
    rw [← Transition.targetId_eq] at htarget
    rw [edges, hsource, htarget]
    cases i with
    | zero =>
      refine ⟨c, source, target, hsource, htarget, ?_, rfl⟩
      rw [List.take_zero, List.map_nil, List.append_nil]
      exact hc
    | succ i =>
      have hnext : (c.draw settings nodes t source target).2.lanes
          = Lanes.after (past ++ [t.ends]) := by
        rw [lanes_draw h c t hsource htarget, hc, Lanes.after, Lanes.after, List.foldl_append]
        rfl
      have hdraw := ih hrest hnext i (Nat.lt_of_succ_lt_succ hi)
      rw [List.append_assoc, List.singleton_append] at hdraw
      exact hdraw

/-- One edge is drawn for each transition between nodes. -/
theorem length_edges (h : Node.AreIndexed nodes) {transitions : List Transition}
    (hbetween : ∀ t ∈ transitions, t.link.IsBetween nodes.keys) (c : StateCanvas) :
  (c.edges settings nodes transitions).length = transitions.length
  := by
  have hlinks : (c.edges settings nodes transitions).map Edge.link = _ :=
    map_link_edges h c transitions
  rw [List.filter_eq_self.mpr] at hlinks
  · rw [← List.length_map Edge.link, hlinks, List.length_map]
  · intro l hl
    obtain ⟨t, ht, rfl⟩ := List.mem_map.mp hl
    exact decide_eq_true (hbetween t ht)

end StateCanvas

end DiagramLayout
