import DiagramLayout.Proofs.Scene.Canvas
import DiagramLayout.Proofs.Scene.Class.Hierarchy
import Mathlib.Algebra.BigOperators.Group.List.Basic
import Mathlib.Data.List.Forall2
import Mathlib.Data.Prod.Lex
import Mathlib.Data.String.Basic

/-!
# The hierarchy does not depend on the order of declaration

Levels are lengths of chains, rows are sorted by the mean places of parents and by name, and the sizes
of boxes belong to the classes. So a diagram with inheritances, but without a cycle of them, is drawn
alike in whatever order its classes and relations stand, whatever the settings are.
-/

namespace DiagramLayout

open Inheritance Single

/-- The diagrams differ at most in the order of their classes and relations. -/
structure ClassDiagram.IsReordering (d e : ClassDiagram) : Prop where
  classes : d.classes.entries.Perm e.classes.entries
  relations : (d.relations.map fun r => (r.source, r.target, r.kind)).Perm
    (e.relations.map fun r => (r.source, r.target, r.kind))

/-- The scenes have the same nodes in the same places, on canvases of one size up to the sign of
zero. -/
structure Scene.HasSameNodes (s t : Scene) : Prop where
  nodes : ∀ id, s.nodes.find? id = t.nodes.find? id
  width : Agree s.width t.width
  height : Agree s.height t.height

/-- What is found under a name does not depend on the order of the entries. -/
theorem Catalog.find?_eq_of_perm {α : Type} {c c' : Catalog α} (h : c.entries.Perm c'.entries)
    (key : String) :
  c.find? key = c'.find? key
  := by
  apply Option.ext
  intro value
  rw [find?_eq_some_iff, find?_eq_some_iff, h.mem_iff]

namespace Inheritance

variable {graph graph' : List Inheritance} {names names' : List String} {name ancestor a b : String}
  {places : List (String × ℕ)} {rows rows' : List (List String)} {n : ℕ}

/-! ### Chains -/

theorem chainLengths_subset (hgraph : graph.Perm graph') (hnames : names.Perm names') :
  chainLengths graph names name ⊆ chainLengths graph' names' name
  := by
  rintro n ⟨root, hroot, hchain⟩
  refine ⟨root, ?_, hchain.mono hgraph.subset⟩
  rw [mem_roots, hnames.mem_iff] at hroot
  rw [mem_roots]
  exact ⟨hroot.1, fun parent hparent => hroot.2 parent (hgraph.mem_iff.mpr hparent)⟩

/-- The lengths of chains do not depend on the order of inheritances and names. -/
theorem chainLengths_eq_of_perm (hgraph : graph.Perm graph') (hnames : names.Perm names') :
  chainLengths graph names name = chainLengths graph' names' name
  := (chainLengths_subset hgraph hnames).antisymm (chainLengths_subset hgraph.symm hnames.symm)

/-- Cycles do not depend on the order of inheritances. -/
theorem IsAcyclic.of_perm (h : IsAcyclic graph) (hgraph : graph.Perm graph') :
  IsAcyclic graph'
  := fun name n hchain => h name n (hchain.mono hgraph.symm.subset)

/-! ### The order in a row -/

/-- A class has the same parents in another order. -/
theorem parentsOf_perm (h : graph.Perm graph') (name : String) :
  (parentsOf graph name).Perm (parentsOf graph' name)
  := (h.filter _).map _

/-- The mean place of the parents does not depend on the order of inheritances: places are summed as
natural numbers. -/
theorem meanParentPlace_eq_of_perm (h : graph.Perm graph') (places : List (String × ℕ))
    (name : String) :
  meanParentPlace graph places name = meanParentPlace graph' places name
  := by
  have hparents := parentsOf_perm h name
  have hsum : (parentsOf graph name).foldl (fun sum parent =>
        sum + (places.lookup parent).getD 0) 0
      = (parentsOf graph' name).foldl (fun sum parent => sum + (places.lookup parent).getD 0) 0 := by
    apply hparents.foldl_eq'
    intro a _ b _ sum
    apply Nat.add_right_comm
  simp only [meanParentPlace, hsum, hparents.length_eq]

/-- The order of a row does not depend on the order of inheritances. -/
theorem precedes_eq_of_perm (h : graph.Perm graph') (places : List (String × ℕ)) :
  precedes graph places = precedes graph' places
  := by
  funext a b
  simp only [precedes, meanParentPlace_eq_of_perm h]

/-- In a row, classes are ordered by the mean places of their parents and then by name. -/
theorem precedes_iff :
  precedes graph places a b = true
    ↔ toLex (rank (meanParentPlace graph places a), a)
      ≤ toLex (rank (meanParentPlace graph places b), b)
  := by
  simp only [precedes, Bool.or_eq_true, Bool.and_eq_true, decide_eq_true_eq, beq_iff_eq,
    Prod.Lex.toLex_le_toLex]

/-- A row that is sorted stands in order. -/
theorem pairwise_row (graph : List Inheritance) (places : List (String × ℕ)) (names : List String) :
  (names.mergeSort (precedes graph places)).Pairwise fun a b => precedes graph places a b = true
  := by
  apply List.pairwise_mergeSort
  · intro a b c hab hbc
    rw [precedes_iff] at hab hbc ⊢
    apply hab.trans hbc
  · intro a b
    rw [Bool.or_eq_true, precedes_iff, precedes_iff]
    apply le_total

/-- A row is in one order, however the classes stood before. -/
theorem row_eq_of_perm (hgraph : graph.Perm graph') (hnames : names.Perm names') :
  names.mergeSort (precedes graph places) = names'.mergeSort (precedes graph' places)
  := by
  rw [← precedes_eq_of_perm hgraph]
  apply List.Perm.eq_of_pairwise _ (pairwise_row graph places names) (pairwise_row graph places names')
  · apply (List.mergeSort_perm names _).trans
    apply hnames.trans (List.mergeSort_perm names' _).symm
  · intro a b _ _ hab hba
    rw [precedes_iff] at hab hba
    exact (Prod.mk.inj (toLex.injective (le_antisymm hab hba))).2

/-- Rows of the same classes are arranged alike: the order in a row is total. -/
theorem arranged_eq_of_perm (hgraph : graph.Perm graph') (h : List.Forall₂ List.Perm rows rows') :
  arranged graph places rows = arranged graph' places rows'
  := by
  induction h generalizing places with
  | nil => rfl
  | cons hnames _ ih => rw [arranged, arranged, row_eq_of_perm hgraph hnames, ih]

end Inheritance

namespace ClassDiagram

variable {d e : ClassDiagram} {levels levels' : Catalog ℕ} {s : ClassSettings}

/-! ### Rows -/

theorem IsReordering.keys (h : d.IsReordering e) :
  d.classes.keys.Perm e.classes.keys
  := h.classes.map _

/-- A reordered diagram has the same inheritances in another order. -/
theorem IsReordering.inheritances (h : d.IsReordering e) :
  d.inheritances.Perm e.inheritances
  := by
  have hcontains : ∀ name, d.classes.contains name = e.classes.contains name := by
    intro name
    rw [Catalog.contains, Catalog.find?_eq_of_perm h.classes, ← Catalog.contains]
  -- What a relation stands for depends on its ends and its kind only.
  have hperm := h.relations.filterMap fun r : String × String × RelationKind =>
    if r.2.2 = .inheritance && e.classes.contains r.1 && e.classes.contains r.2.1 then
      some (Inheritance.mk r.1 r.2.1)
    else none
  rw [List.filterMap_map, List.filterMap_map] at hperm
  have heq : d.inheritance? = e.inheritance? := by
    funext r
    simp only [inheritance?, hcontains]
  rw [ClassDiagram.inheritances, ClassDiagram.inheritances, heq]
  exact hperm

theorem IsReordering.hasInheritance (h : d.IsReordering e) :
  d.hasInheritance = e.hasInheritance
  := by
  have hany := h.relations.any_eq (f := fun r => r.2.2 = .inheritance)
  rw [List.any_map, List.any_map] at hany
  exact hany

theorem deepest_le (h : ∀ name, levels.find? name = levels'.find? name) :
  Levelling.deepest levels ≤ Levelling.deepest levels'
  := by
  rw [Levelling.deepest, List.foldl_eq_foldr]
  apply List.max_le_of_forall_le
  intro level hlevel
  obtain ⟨entry, hentry, rfl⟩ := List.mem_map.mp hlevel
  apply le_deepest
  rw [← h, Catalog.find?_eq_some_iff]
  exact hentry

/-- Where the levels are the same, so are the classes of each row. -/
theorem byLevel_perm (hkeys : d.classes.keys.Perm e.classes.keys)
    (h : ∀ name, levels.find? name = levels'.find? name) :
  List.Forall₂ List.Perm (d.byLevel levels) (e.byLevel levels')
  := by
  have hdeepest : Levelling.deepest levels = Levelling.deepest levels' :=
    le_antisymm (deepest_le h) (deepest_le fun name => (h name).symm)
  rw [byLevel, byLevel, hdeepest]
  apply List.rel_filter
  · intro row row' hrow
    dsimp only
    rw [hrow.isEmpty_eq]
  · rw [List.forall₂_map_left_iff, List.forall₂_map_right_iff, List.forall₂_same]
    intro level _
    simp only [h]
    apply hkeys.filter

/-- Where there are classes, the hierarchies have the same rows. -/
theorem IsReordering.hierarchy? (h : d.IsReordering e) (hinherits : d.hasInheritance = true)
    (hacyclic : IsAcyclic d.inheritances) (hclasses : d.classes.keys ≠ []) :
  ∃ rows, d.hierarchy? = some rows ∧ e.hierarchy? = some rows
  := by
  obtain ⟨levels, hlevels, hgreatest⟩ := exists_levels hacyclic hclasses
  obtain ⟨levels', hlevels', hgreatest'⟩ := exists_levels (hacyclic.of_perm h.inheritances)
    fun hnil => hclasses (List.Perm.eq_nil (hnil ▸ h.keys))
  have hfind : ∀ name, levels.find? name = levels'.find? name := by
    intro name
    apply Option.ext
    intro level
    rw [hgreatest, hgreatest', chainLengths, chainLengths,
      chainLengths_eq_of_perm h.inheritances h.keys]
  refine ⟨arranged d.inheritances [] (d.byLevel levels), ?_, ?_⟩
  · rw [ClassDiagram.hierarchy?, if_pos hinherits, hlevels, Option.map_some]
  · rw [ClassDiagram.hierarchy?, ← h.hasInheritance, if_pos hinherits, hlevels', Option.map_some,
      arranged_eq_of_perm h.inheritances (byLevel_perm h.keys hfind)]

/-! ### Places -/

/-- A reordered diagram has classes of the same sizes. -/
theorem IsReordering.sizeOf (h : d.IsReordering e) (s : ClassSettings) :
  d.sizeOf s = e.sizeOf s
  := by
  funext name
  rw [ClassDiagram.sizeOf, Catalog.find?_eq_of_perm h.classes, ← ClassDiagram.sizeOf]

section Size

variable (h : d.sizeOf s = e.sizeOf s)

include h

theorem tallest_congr (names : List String) :
  d.tallest s names = e.tallest s names
  := by
  rw [tallest, h, ← tallest]

theorem rowWidth_congr (row : List String) :
  d.rowWidth s row = e.rowWidth s row
  := by
  rw [rowWidth, h, ← rowWidth]

/-- Rows of classes of the same sizes are placed alike. -/
theorem placeRow_congr (x y : Float32) (row : List String) :
  d.placeRow s x y row = e.placeRow s x y row
  := by
  induction row generalizing x with
  | nil => rfl
  | cons name rest ih => rw [placeRow, placeRow, ih, h]

/-- Levels of classes of the same sizes are placed alike. -/
theorem placeRows_congr (width y : Float32) (rows : List (List String)) :
  d.placeRows s width y rows = e.placeRows s width y rows
  := by
  induction rows generalizing y with
  | nil => rfl
  | cons row rest ih =>
    rw [placeRows, placeRows, ih, placeRow_congr h, rowWidth_congr h, tallest_congr h]

/-- Hierarchies of classes of the same sizes are placed alike. -/
theorem hierarchyPlaces_congr (rows : List (List String)) :
  d.hierarchyPlaces s rows = e.hierarchyPlaces s rows
  := by
  have hwidths : d.rowWidth s = e.rowWidth s := funext (rowWidth_congr h)
  rw [hierarchyPlaces, hierarchyPlaces, placeRows_congr h, hwidths]

/-- Grids of classes of the same sizes are placed alike. -/
theorem gridRows_congr (y : Float32) (rows : List (List String)) :
  d.gridRows s y rows = e.gridRows s y rows
  := by
  induction rows generalizing y with
  | nil => rfl
  | cons row rest ih => rw [gridRows, gridRows, ih, tallest_congr h]

end Size

/-- The classes of a reordered diagram stand in the same places. -/
theorem IsReordering.places (h : d.IsReordering e) (hinherits : d.hasInheritance = true)
    (hacyclic : IsAcyclic d.inheritances) (hclasses : d.classes.keys ≠ []) (s : ClassSettings) :
  d.places s = e.places s
  := by
  obtain ⟨rows, hrows, hrows'⟩ := h.hierarchy? hinherits hacyclic hclasses
  rw [ClassDiagram.places, ClassDiagram.places, hrows, hrows']
  apply hierarchyPlaces_congr (h.sizeOf s)

/-! ### Scenes -/

/-- The nodes are the same, but may stand in another order. -/
theorem IsReordering.nodes (h : d.IsReordering e) (hinherits : d.hasInheritance = true)
    (hacyclic : IsAcyclic d.inheritances) (s : ClassSettings) :
  (d.nodes s).values.Perm (e.nodes s).values
  := by
  rw [values_nodes, values_nodes]
  apply (h.classes.map _).trans
  apply List.Perm.of_eq
  apply List.map_congr_left
  intro entry hentry
  have hkey : entry.1 ∈ d.classes.keys := List.mem_map_of_mem (h.classes.mem_iff.mpr hentry)
  rw [h.places hinherits hacyclic (List.ne_nil_of_mem hkey)]

/-- A diagram with inheritances, but without a cycle of them, is drawn alike in any order of its classes
and relations. -/
theorem scene_hasSameNodes (h : d.IsReordering e) (hinherits : d.hasInheritance = true)
    (hacyclic : IsAcyclic d.inheritances) (settings : Settings) :
  (d.scene settings).HasSameNodes (e.scene settings)
  := by
  have hnodes := h.nodes hinherits hacyclic settings.classes
  constructor
  case nodes =>
    intro id
    apply Option.ext
    intro n
    change (d.nodes settings.classes).find? id = some n ↔ (e.nodes settings.classes).find? id = some n
    rw [find?_nodes_iff, find?_nodes_iff, hnodes.mem_iff]
  case width => apply (Scene.agree_furthest hnodes _ _).add
  case height => apply (Scene.agree_furthest hnodes _ _).add

/-- The classes and relations of `diamond` in another order. -/
def diamondReversed : ClassDiagram :=
  ((((empty.relate .inheritance "C" "A").relate .inheritance "B" "A").relate
    .inheritance "D" "C").relate .inheritance "D" "B").relate .inheritance "D" "A"

/-- The diamond in another order has the same nodes. -/
theorem hasSameNodes_diamond :
  diamond.IsReordering diamondReversed ∧ diamond.hasInheritance = true
    ∧ IsAcyclic diamond.inheritances
    ∧ (diamond.scene .standard).HasSameNodes (diamondReversed.scene .standard)
  := by
  have hreordering : diamond.IsReordering diamondReversed := by
    constructor
    · decide
    · decide
  have hinherits : diamond.hasInheritance = true := by decide
  exact ⟨hreordering, hinherits, isAcyclic_diamond,
    scene_hasSameNodes hreordering hinherits isAcyclic_diamond .standard⟩

end ClassDiagram

end DiagramLayout
