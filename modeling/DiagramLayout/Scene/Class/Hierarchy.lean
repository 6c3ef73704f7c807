import DiagramLayout.Diagram.Class

/-!
# Levels of the inheritance hierarchy

The inheritances between classes of a diagram make it a graph. Classes without parents stand on
level 0 and every other class below its deepest parent. Levels are found by lowering: a queue holds
the classes whose heirs have to be looked at again, and an heir that stands too high is lowered and
queued. No class is lowered to a level that is not below the number of classes, which ends the
lowering where inheritances form a cycle. Classes that no class without parents leads to are put
below all others, each on a level of its own.
-/

namespace DiagramLayout

/-- An inheritance between two classes. -/
structure Inheritance where
  heir : String
  parent : String
deriving DecidableEq

namespace ClassDiagram

/-- Whether the diagram holds an inheritance of any two names. -/
def hasInheritance (d : ClassDiagram) : Bool :=
  d.relations.any fun r => r.kind = .inheritance

/-- The inheritance that a relation stands for, when it is one between classes of the diagram. -/
def inheritance? (d : ClassDiagram) (r : ClassRelation) : Option Inheritance :=
  if r.kind = .inheritance && d.classes.contains r.source && d.classes.contains r.target then
    some ⟨r.source, r.target⟩
  else none

/-- The inheritances between classes of the diagram, in the order of the relations. -/
def inheritances (d : ClassDiagram) : List Inheritance :=
  d.relations.filterMap d.inheritance?

end ClassDiagram

namespace Inheritance

/-- The parents of a class, once for each inheritance. -/
def parentsOf (graph : List Inheritance) (name : String) : List String :=
  (graph.filter fun i => i.heir = name).map parent

/-- The heirs of a class, once for each inheritance. -/
def heirsOf (graph : List Inheritance) (name : String) : List String :=
  (graph.filter fun i => i.parent = name).map heir

/-- The classes without parents. -/
def roots (graph : List Inheritance) (names : List String) : List String :=
  names.filter fun name => (parentsOf graph name).isEmpty

end Inheritance

/-- The levels found so far and the classes whose heirs are still to be looked at. -/
structure Levelling where
  levels : Catalog Nat
  queue : List String

namespace Levelling

/-- Every root on level 0, and all of them in the queue. -/
def initial (roots : List String) : Levelling :=
  ⟨.ofList (roots.map fun root => (root, 0)), roots⟩

/-- Lowers an heir to a level and puts it into the queue, unless it stands there or below. -/
def lower (level : Nat) (s : Levelling) (heir : String) : Levelling :=
  if (s.levels.find? heir).all (· < level) then ⟨s.levels.put heir level, s.queue ++ [heir]⟩ else s

/-- Lowers the heirs of a class below it, as long as the level is below the limit. -/
def visit (graph : List Inheritance) (limit : Nat) (s : Levelling) (name : String) : Levelling :=
  let level := (s.levels.find? name).getD 0 + 1
  if limit ≤ level then s else (Inheritance.heirsOf graph name).foldl (lower level) s

/-- Visits the classes of the queue until it is empty, but at most `steps` of them. -/
def settle (graph : List Inheritance) (limit : Nat) : Nat → Levelling → Levelling
  | 0, s => s
  | steps + 1, ⟨levels, queue⟩ =>
    match queue with
    | [] => ⟨levels, []⟩
    | name :: rest => settle graph limit steps (visit graph limit ⟨levels, rest⟩ name)

/-- The deepest level in use. -/
def deepest (levels : Catalog Nat) : Nat :=
  levels.values.foldl max 0

/-- Puts each class without a level on a level of its own below all others. -/
def append (levels : Catalog Nat) : List String → Catalog Nat
  | [] => levels
  | name :: rest =>
    if levels.contains name then append levels rest
    else append (levels.put name (deepest levels + 1)) rest

end Levelling

/-- The levels of the classes of a diagram; none when every class has parents.

Each of the `n` classes enters the queue at most once for each level it is put on, and these are at
most `n`. -/
def ClassDiagram.levels? (d : ClassDiagram) : Option (Catalog Nat) :=
  let graph := d.inheritances
  let roots := Inheritance.roots graph d.classes.keys
  let limit := d.classes.size
  if roots.isEmpty then none
  else
    let settled := Levelling.settle graph limit (limit * (limit + 1)) (.initial roots)
    some (Levelling.append settled.levels d.classes.keys)

end DiagramLayout
