import DiagramLayout.Proofs.Scene.Class.Reordering
import DiagramLayout.Proofs.Scene.Class.Slots
import DiagramLayout.Proofs.Scene.Class.Standing

/-!
# Relations of unknown names

A relation with an end that is no class gets no edge and, unless it is an inheritance, leaves no trace
in the scene. An inheritance of an unknown name counts among the inheritances that ask for the hierarchy
and among those that share the side of a parent.
-/

namespace DiagramLayout

open Inheritance

/-- The boxes of the first row begin at the top. -/
theorem Scene.StandsInRows.y_eq {t : Scene} {d : ClassDiagram} {s : ClassSettings}
    {rows : List (List String)} {left : List String → ℕ → Float32} {top gap : Float32}
    {row : List String} {name : String} (h : t.StandsInRows d s rows left top gap)
    (hrow : rows[0]? = some row) (hname : name ∈ row) :
  ∃ n, t.nodes.find? name = some n ∧ n.box.y = top
  := by
  obtain ⟨column, hcolumn⟩ := List.mem_iff_getElem?.mp hname
  obtain ⟨c, n, hc, hn, hbox⟩ := h.box 0 column row name hrow hcolumn
  refine ⟨n, hn, ?_⟩
  rw [hbox]
  rfl

namespace ClassDiagram

variable {d : ClassDiagram} {settings : Settings} {r : ClassRelation}

/-- Whether both ends of a relation are classes. -/
def knows (d : ClassDiagram) (r : ClassRelation) : Bool :=
  r.link.IsBetween d.classes.keys

/-- The diagram without the relations of unknown names. -/
def known (d : ClassDiagram) : ClassDiagram :=
  ⟨d.classes, d.relations.filter d.knows⟩

/-- The edge of a relation in the scene of the diagram. -/
def edgeOf? (d : ClassDiagram) (settings : Settings) (r : ClassRelation) : Option Edge :=
  r.edge? settings (d.nodes settings.classes) (Slot.all (d.nodes settings.classes) d.relations)

/-- If there are inheritances and classes, then there are inheritances between classes. -/
def KeepsPlacement (d : ClassDiagram) : Prop :=
  d.hasInheritance = true → d.known.hasInheritance = true ∨ d.classes.keys = []

instance : Decidable d.KeepsPlacement :=
  inferInstanceAs (Decidable (_ → _ ∨ _))

/-- All inheritances to the parent of an inheritance of this id are between classes. -/
def KeepsSlot (d : ClassDiagram) (id : String) : Prop :=
  Slot.IsKept d.knows d.relations id

instance {id : String} : Decidable (d.KeepsSlot id) :=
  inferInstanceAs (Decidable (Slot.IsKept _ _ _))

/-- The relations that are kept are those between classes. -/
theorem mem_relations_known :
  r ∈ d.known.relations ↔ r ∈ d.relations ∧ d.knows r = true
  := List.mem_filter

/-- What relations of unknown names do not contribute to depends on the others only. -/
theorem filterMap_relations_known {β : Type} {f : ClassRelation → Option β}
    (h : ∀ r, d.knows r = false → f r = none) :
  d.known.relations.filterMap f = d.relations.filterMap f
  := by
  rw [known, List.filterMap_filter]
  apply List.filterMap_congr
  intro r _
  split_ifs with hknown
  · rfl
  · rw [h r (Bool.eq_false_iff.mpr hknown)]

/-! ### The hierarchy -/

/-- A relation with an unknown end is no inheritance between classes. -/
theorem inheritance?_eq_none (h : d.knows r = false) :
  d.inheritance? r = none
  := by
  rw [inheritance?, if_neg]
  rw [Bool.and_eq_true, Bool.and_eq_true, Catalog.contains_iff, Catalog.contains_iff]
  rintro ⟨⟨-, hsource⟩, htarget⟩
  exact of_decide_eq_false h ⟨hsource, htarget⟩

/-- The inheritances between classes are those of the relations that are kept. -/
theorem inheritances_known :
  d.known.inheritances = d.inheritances
  := filterMap_relations_known fun _ => inheritance?_eq_none

/-- Relations with unknown ends do not matter to the levels. -/
theorem levels?_known :
  d.known.levels? = d.levels?
  := by
  rw [levels?, levels?, inheritances_known, known]

/-- A diagram with inheritances is drawn as a hierarchy, when there are levels. -/
theorem hierarchy?_of_hasInheritance (h : d.hasInheritance = true) :
  d.hierarchy? = d.levels?.map fun levels => arranged d.inheritances [] (d.byLevel levels)
  := if_pos h

/-- A diagram without inheritances is drawn as a grid. -/
theorem hierarchy?_eq_none (h : d.hasInheritance = false) :
  d.hierarchy? = none
  := if_neg (Bool.eq_false_iff.mp h)

theorem levels?_eq_none_of_empty (h : d.classes.keys = []) :
  d.levels? = none
  := by
  rw [levels?_eq_none_iff, h]
  exact nofun

theorem hasInheritance_of_known (h : d.known.hasInheritance = true) :
  d.hasInheritance = true
  := by
  obtain ⟨r, hr, hkind⟩ := List.any_eq_true.mp h
  exact List.any_eq_true.mpr ⟨r, (mem_relations_known.mp hr).1, hkind⟩

theorem inheritances_eq_nil (h : d.hasInheritance = false) :
  d.inheritances = []
  := by
  rw [inheritances, List.filterMap_eq_nil_iff]
  intro r hr
  have hkind := List.any_eq_false.mp h r hr
  rw [inheritance?, if_neg]
  rw [Bool.and_eq_true, Bool.and_eq_true]
  exact fun hall => hkind hall.1.1

/-- The rows stay, unless the inheritances of unknown names were the only ones. -/
theorem hierarchy?_known (h : d.KeepsPlacement) :
  d.known.hierarchy? = d.hierarchy?
  := by
  cases hinherits : d.hasInheritance with
  | false =>
    have hknown : d.known.hasInheritance = false := by
      rw [Bool.eq_false_iff]
      intro htrue
      rw [hasInheritance_of_known htrue] at hinherits
      contradiction
    rw [hierarchy?_eq_none hinherits, hierarchy?_eq_none hknown]
  | true =>
    rcases h hinherits with hknown | hempty
    · rw [hierarchy?_of_hasInheritance hinherits, hierarchy?_of_hasInheritance hknown, levels?_known,
        inheritances_known]
      rfl
    · have hlevels : d.levels? = none := levels?_eq_none_of_empty hempty
      rw [hierarchy?, hierarchy?, levels?_known, hlevels, Option.map_none, ite_self, Option.map_none,
        ite_self]

/-! ### The frame -/

/-- Relations with unknown ends do not matter to the places, as long as they do not choose between
hierarchy and grid. -/
theorem places_known (s : ClassSettings) (h : d.known.hierarchy? = d.hierarchy?) :
  d.known.places s = d.places s
  := by
  have hsizes : d.known.sizeOf s = d.sizeOf s := rfl
  rw [places, places, h]
  cases d.hierarchy? with
  | some rows => exact hierarchyPlaces_congr hsizes rows
  | none => exact gridRows_congr hsizes s.gridStartY d.grid

/-- Relations with unknown ends do not matter to the nodes, as long as they do not choose between
hierarchy and grid. -/
theorem nodes_known (s : ClassSettings) (h : d.known.hierarchy? = d.hierarchy?) :
  d.known.nodes s = d.nodes s
  := by
  rw [nodes, nodes, places_known s h, known]

/-- The scene of a class diagram apart from its edges. -/
theorem frame_scene (d : ClassDiagram) (settings : Settings) :
  (d.scene settings).frame =
    let s := settings.classes
    { kind := .classes
      width := Scene.furthest (d.nodes s) Rect.right s.minCanvasWidth + s.canvasMargin
      height := Scene.furthest (d.nodes s) Rect.bottom s.minCanvasHeight + s.canvasMargin
      nodes := d.nodes s
      edges := []
      compartments := d.compartments s }
  := rfl

/-- Relations with unknown ends do not matter to the scene apart from its edges, when they keep the
placement. -/
theorem frame_known (settings : Settings) (h : d.KeepsPlacement) :
  (d.known.scene settings).frame = (d.scene settings).frame
  := by
  have hrows : d.known.hierarchy? = d.hierarchy? := hierarchy?_known h
  have hcompartments : d.known.compartments settings.classes = d.compartments settings.classes := by
    rw [compartments, compartments, places_known settings.classes hrows, known]
  simp only [frame_scene, nodes_known settings.classes hrows, hcompartments]

/-- The first class stands in the first row of the grid. -/
theorem exists_mem_grid {first : String} {rest : List String} (h : d.classes.keys = first :: rest) :
  ∃ row, d.grid[0]? = some row ∧ first ∈ row
  := by
  have hflatten := d.flatten_grid
  cases hrows : d.grid with
  | nil =>
    rw [hrows, h] at hflatten
    contradiction
  | cons row more =>
    refine ⟨row, rfl, ?_⟩
    cases row with
    | nil =>
      have hmem : [] ∈ d.grid := by
        rw [hrows]
        apply List.mem_cons_self
      exact absurd rfl (nonempty_of_mem_grid hmem)
    | cons name others =>
      rw [hrows, h] at hflatten
      obtain rfl := (List.cons.inj hflatten).1
      apply List.mem_cons_self

/-- Without inheritances between classes all of them stand in the first row of a hierarchy. -/
theorem exists_mem_hierarchy {rows : List (List String)} {name : String}
    (hrows : d.hierarchy? = some rows) (hgraph : d.inheritances = []) (hname : name ∈ d.classes.keys) :
  ∃ row, rows[0]? = some row ∧ name ∈ row
  := by
  obtain ⟨levels, hlevels, hlevelled⟩ := isLevelled_hierarchy hrows
  have hzero : ∀ name ∈ rows.flatten, levels.find? name = some 0 := by
    intro name hname
    rw [(hasLevels_of_levels? hlevels).root, hgraph]
    exact ⟨hlevelled.perm.mem_iff.mp hname, fun _ => List.not_mem_nil⟩
  rw [← hlevelled.perm.mem_iff] at hname
  cases rows with
  | nil => contradiction
  | cons row rest =>
    refine ⟨row, rfl, ?_⟩
    rw [List.flatten_cons] at hzero hname
    apply (List.mem_append.mp hname).resolve_right
    intro hlower
    obtain ⟨lower, hlower, hmem⟩ := List.mem_flatten.mp hlower
    obtain ⟨upper, hupper⟩ := List.exists_mem_of_ne_nil row (hlevelled.nonempty row List.mem_cons_self)
    obtain ⟨m, n, hm, hn, hlt⟩ :=
      (List.pairwise_cons.mp hlevelled.above).1 lower hlower upper hupper name hmem
    rw [hzero upper (List.mem_append_left _ hupper), Option.some.injEq] at hm
    rw [hzero name hname, Option.some.injEq] at hn
    omega

/-- Where the hierarchy begins at another height than the grid, a diagram whose only inheritances are of
unknown names is placed elsewhere without them. -/
theorem keepsPlacement_of_frame (hheights : settings.classes.startY ≠ settings.classes.gridStartY)
    (h : (d.known.scene settings).frame = (d.scene settings).frame) :
  d.KeepsPlacement
  := by
  intro hinherits
  by_contra hlost
  obtain ⟨hknown, hclasses⟩ := not_or.mp hlost
  have hnone : d.known.hierarchy? = none := hierarchy?_eq_none (Bool.eq_false_iff.mpr hknown)
  have hgraph : d.inheritances = [] := by
    rw [← inheritances_known, inheritances_eq_nil (Bool.eq_false_iff.mpr hknown)]
  obtain ⟨first, rest, hkeys⟩ := List.exists_cons_of_ne_nil hclasses
  have hfirst : first ∈ d.classes.keys := by
    rw [hkeys]
    apply List.mem_cons_self
  have hlevels : d.levels? ≠ none := by
    intro hlevels
    obtain ⟨parent, hparent⟩ := levels?_eq_none_iff.mp hlevels first hfirst
    rw [hgraph] at hparent
    contradiction
  obtain ⟨levels, hlevels⟩ := Option.ne_none_iff_exists'.mp hlevels
  have hrows : d.hierarchy? = some (arranged d.inheritances [] (d.byLevel levels)) := by
    rw [hierarchy?_of_hasInheritance hinherits, hlevels, Option.map_some]
  -- The first class stands in the first row of both, and so at two heights.
  obtain ⟨row, hrow, hmem⟩ := exists_mem_hierarchy hrows hgraph hfirst
  obtain ⟨row', hrow', hmem'⟩ := exists_mem_grid (d := d.known) hkeys
  obtain ⟨n, hn, hy⟩ := (standsInRows_hierarchy settings hrows).y_eq hrow hmem
  obtain ⟨n', hn', hy'⟩ := (standsInRows_grid settings hnone).y_eq hrow' hmem'
  rw [← Scene.nodes_frame, h, Scene.nodes_frame, hn, Option.some.injEq] at hn'
  apply hheights
  rw [← hy, ← hy', hn']

/-! ### The edges -/

/-- A relation with an unknown end is not drawn. -/
theorem edgeOf?_eq_none (settings : Settings) (h : d.knows r = false) :
  d.edgeOf? settings r = none
  := by
  have hindexed : Node.AreIndexed (d.nodes settings.classes) := Node.areIndexed_catalog _
  have hbetween : ¬r.link.IsBetween (d.nodes settings.classes).keys := by
    rintro ⟨hsource, htarget⟩
    exact of_decide_eq_false h ⟨mem_keys_nodes.mp hsource, mem_keys_nodes.mp htarget⟩
  rw [← Option.map_eq_none_iff, edgeOf?, ClassRelation.map_link_edge? hindexed, if_neg hbetween]

/-- The edges are those of the relations that are kept. -/
theorem edges_scene (d : ClassDiagram) (settings : Settings) :
  (d.scene settings).edges = d.known.relations.filterMap (d.edgeOf? settings)
  := (filterMap_relations_known fun _ => edgeOf?_eq_none settings).symm

/-- The edge of a relation is the same in both scenes when its ends and its slot are. -/
theorem edgeOf?_known (hplacement : d.KeepsPlacement)
    (hslot : r.kind = .inheritance → d.KeepsSlot r.id) :
  d.known.edgeOf? settings r = d.edgeOf? settings r
  := by
  have hnodes : d.known.nodes settings.classes = d.nodes settings.classes :=
    nodes_known settings.classes (hierarchy?_known hplacement)
  have hends : ∀ source target : Node,
      r.ends settings (Slot.all (d.nodes settings.classes) d.known.relations) source target
        = r.ends settings (Slot.all (d.nodes settings.classes) d.relations) source target := by
    intro source target
    unfold ClassRelation.ends
    split_ifs with hkind
    · rw [known, Slot.find?_all_filter (hslot hkind)]
    · rfl
  rw [edgeOf?, edgeOf?, hnodes]
  unfold ClassRelation.edge? ClassRelation.edge
  simp only [hends]

/-- Relations of unknown names get no edges and leave no trace in the scene as long as inheritances of
unknown names neither are the only inheritances nor lead to the parents of others. In the first case the
boxes stand elsewhere without them, and in the second case the others have other slots. -/
theorem scene_known (d : ClassDiagram) (settings : Settings) :
  (d.scene settings).edges = d.known.relations.filterMap (d.edgeOf? settings)
    ∧ (d.KeepsPlacement → (d.known.scene settings).frame = (d.scene settings).frame
      ∧ (∀ r ∈ d.known.relations, (r.kind = .inheritance → d.KeepsSlot r.id) →
        d.known.edgeOf? settings r = d.edgeOf? settings r)
      ∧ ((∀ r ∈ d.known.relations, r.kind = .inheritance → d.KeepsSlot r.id) →
        d.known.scene settings = d.scene settings))
    ∧ (settings.classes.startY ≠ settings.classes.gridStartY →
      (d.known.scene settings).frame = (d.scene settings).frame → d.KeepsPlacement)
    ∧ ((d.relations.map ClassRelation.id).Nodup →
      ∀ nodes, ∀ r ∈ d.known.relations, r.kind = .inheritance →
        ((Slot.all nodes d.known.relations).find? r.id = (Slot.all nodes d.relations).find? r.id
          ↔ d.KeepsSlot r.id))
  := by
  refine ⟨d.edges_scene settings, ?_, keepsPlacement_of_frame, ?_⟩
  · intro hplacement
    have hframe := frame_known settings hplacement
    refine ⟨hframe, fun r _ hslot => edgeOf?_known hplacement hslot, ?_⟩
    intro hslots
    have hedges : (d.known.scene settings).edges = (d.scene settings).edges := by
      rw [d.edges_scene settings]
      apply List.filterMap_congr
      intro r hr
      exact edgeOf?_known hplacement (hslots r hr)
    exact Scene.eq_of_frame_eq hframe hedges
  · intro hdistinct nodes r hr hkind
    obtain ⟨hmem, hknown⟩ := mem_relations_known.mp hr
    exact Slot.find?_all_filter_iff hdistinct hmem hkind hknown

/-- A class with an heir and with a part that is no class. -/
def partDiagram : ClassDiagram :=
  ⟨.ofList [("A", .bare "A"), ("B", .bare "B")],
    [⟨"r1", "B", "A", .inheritance, none, some .triangle⟩,
      ⟨"r2", "A", "X", .composition, some .diamond, none⟩]⟩

/-- The part that is no class does not matter to the scene. -/
theorem scene_known_partDiagram :
  partDiagram.known.relations.length = 1
    ∧ partDiagram.known.scene .standard = partDiagram.scene .standard
  := by
  have hplacement : partDiagram.KeepsPlacement := by decide
  have hslots : ∀ r ∈ partDiagram.known.relations, r.kind = .inheritance →
      partDiagram.KeepsSlot r.id := by
    decide
  exact ⟨by decide, ((scene_known partDiagram .standard).2.1 hplacement).2.2 hslots⟩

/-- Two classes, and an heir of one of them that is no class. -/
def orphanDiagram : ClassDiagram :=
  ⟨.ofList [("A", .bare "A"), ("B", .bare "B")],
    [⟨"r1", "X", "A", .inheritance, none, some .triangle⟩]⟩

/-- The heir that is no class matters to the scene. -/
theorem not_scene_known_orphanDiagram :
  ¬∀ (d : ClassDiagram) (settings : Settings), d.known.scene settings = d.scene settings
  := by
  intro h
  have hframe : (orphanDiagram.known.scene .standard).frame = (orphanDiagram.scene .standard).frame := by
    rw [h]
  have hheights : Settings.standard.classes.startY ≠ Settings.standard.classes.gridStartY := by
    decide +kernel
  have hlost : ¬orphanDiagram.KeepsPlacement := by decide
  exact hlost (keepsPlacement_of_frame hheights hframe)

end ClassDiagram

end DiagramLayout
