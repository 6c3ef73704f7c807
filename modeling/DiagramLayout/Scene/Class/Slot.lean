import DiagramLayout.Scene.Basic

/-!
# Slots of heirs

The heirs of a class share one side of its box. Each inheritance has a slot there: the heirs are
counted from left to right, by the middles of their boxes.
-/

namespace DiagramLayout

/-- The place of an inheritance among those of one parent. -/
structure Slot where
  rank : Nat
  count : Nat
deriving DecidableEq

namespace Slot

/-- The ratio at which the slot divides the side of the parent. -/
def ratio (s : Slot) : Float32 :=
  Float32.ofNat (s.rank + 1) / Float32.ofNat (s.count + 1)

/-- The middle of an heir, 0 for one that has no node. -/
def heirX (nodes : Catalog Node) (r : ClassRelation) : Float32 :=
  ((nodes.find? r.source).map fun node => node.box.center.x).getD 0.0

/-- The inheritances of a class from left to right. -/
def siblings (nodes : Catalog Node) (relations : List ClassRelation) (parent : String) :
    List ClassRelation :=
  (relations.filter fun r => r.kind = .inheritance && r.target = parent).mergeSort fun a b =>
    Single.rank (heirX nodes a) ≤ Single.rank (heirX nodes b)

/-- The parents that inheritances name, in order of first appearance. -/
def parents (relations : List ClassRelation) : List String :=
  ((relations.filter fun r => r.kind = .inheritance).map ClassRelation.target).eraseDups

/-- The slots of the inheritances of a class, by their ids. -/
def ofParent (nodes : Catalog Node) (relations : List ClassRelation) (parent : String) :
    List (String × Slot) :=
  let group := siblings nodes relations parent
  group.mapIdx fun rank r => (r.id, ⟨rank, group.length⟩)

/-- The slots of all inheritances, by their ids. -/
def all (nodes : Catalog Node) (relations : List ClassRelation) : Catalog Slot :=
  .ofList ((parents relations).flatMap (ofParent nodes relations))

end Slot

end DiagramLayout
