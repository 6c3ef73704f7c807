import DiagramLayout.Proofs.Scene.Class.Places
import DiagramLayout.Proofs.Scene.States

/-!
# Nodes of classes

Every class has one node, in the order of the classes, and its box stands in the place of the class.
-/

namespace DiagramLayout

namespace ClassDiagram

variable {d : ClassDiagram} {s : ClassSettings} {name : String} {c : ClassNode} {g : ℕ}
  {P Q : String → String → Prop} {places : Places} {corner : Point}

/-- There is one node for each class, in the order of the classes. -/
theorem values_nodes (d : ClassDiagram) (s : ClassSettings) :
  (d.nodes s).values = d.classes.entries.map fun e => node s (d.places s) e.1 e.2
  := by
  apply Node.values_catalog
  rw [List.map_map]
  exact d.classes.nodup

theorem mem_keys_nodes :
  name ∈ (d.nodes s).keys ↔ name ∈ d.classes.keys
  := by
  rw [nodes, Node.mem_keys_catalog, List.map_map]
  rfl

/-- The node under a name is the one with this id. -/
theorem find?_nodes_iff {n : Node} :
  (d.nodes s).find? name = some n ↔ n ∈ (d.nodes s).values ∧ n.id = name
  := by
  have hindexed : Node.AreIndexed (d.nodes s) := Node.areIndexed_catalog _
  constructor
  · intro h
    exact ⟨Catalog.mem_values_of_find? h, hindexed.id_eq h⟩
  · rintro ⟨hn, rfl⟩
    apply hindexed.find?_id hn

/-- Under the name of a class stands its node. -/
theorem find?_nodes (h : d.classes.find? name = some c) :
  (d.nodes s).find? name = some (node s (d.places s) name c)
  := by
  rw [find?_nodes_iff, values_nodes]
  exact ⟨List.mem_map_of_mem (Catalog.find?_eq_some_iff.mp h), rfl⟩

theorem sizeOf_eq (h : d.classes.find? name = some c) :
  d.sizeOf s name = s.sizeOf c
  := by
  rw [sizeOf, h]
  rfl

/-- The place of a class is found where no two classes share one. -/
theorem lookup_places (hperm : (places.map Prod.fst).Perm d.classes.keys)
    (h : (name, corner) ∈ places) :
  places.lookup name = some corner
  := by
  have hnodup : (places.map Prod.fst).Nodup := hperm.nodup_iff.mpr d.classes.nodup
  exact (Catalog.find?_eq_some_iff (c := ⟨places, hnodup⟩)).mpr h

/-- The box of the class that has a place. -/
def boxAt (d : ClassDiagram) (e : String × Point) : Rect :=
  ⟨e.2.x, e.2.y, (d.sizeOf .standard e.1).width, (d.sizeOf .standard e.1).height⟩

/-- The node of a class has the size of the class and stands in its place. -/
theorem exists_node (hplaces : d.IsPlacement g P Q (d.places .standard))
    (hname : name ∈ d.classes.keys) :
  ∃ n corner, (d.nodes .standard).find? name = some n ∧ (name, corner) ∈ d.places .standard
    ∧ n.box = d.boxAt (name, corner)
  := by
  obtain ⟨c, hc⟩ := Catalog.exists_find?_iff.mpr hname
  obtain ⟨⟨_, corner⟩, hcorner, rfl⟩ := List.mem_map.mp (hplaces.perm.mem_iff.mpr hname)
  refine ⟨_, corner, find?_nodes hc, hcorner, ?_⟩
  rw [boxAt, sizeOf_eq hc, node, Node.labelled, Places.box, lookup_places hplaces.perm hcorner]
  rfl

/-- Of two classes, one has its place on the left of the other one or above it. -/
theorem IsPlacement.stands_or (hplaces : d.IsPlacement g P Q places) {e f : String × Point}
    (he : e ∈ places) (hf : f ∈ places) (hne : e.1 ≠ f.1) :
  d.Stands g P Q e f ∨ d.Stands g P Q f e
  := by
  have hpairs : places.Pairwise fun e f => d.Stands g P Q e f ∨ d.Stands g P Q f e :=
    hplaces.stands.imp Or.inl
  have hsymm : Std.Symm fun e f => d.Stands g P Q e f ∨ d.Stands g P Q f e := ⟨fun _ _ => Or.symm⟩
  apply hpairs.forall he hf
  rintro rfl
  exact hne rfl

end ClassDiagram

end DiagramLayout
