import DiagramLayout.Catalog
import DiagramLayout.Text.Blank

/-!
# Class diagrams

Classes with attributes and methods, and the relations between them. A member that has both an
opening and a closing parenthesis is a method.
-/

namespace DiagramLayout

/-- A class with its members. -/
structure ClassNode where
  name : String
  attributes : List String
  methods : List String
deriving DecidableEq, Inhabited

namespace ClassNode

/-- The class without members. -/
def bare (name : String) : ClassNode :=
  ⟨name, [], []⟩

/-- Whether a member is a method. -/
def isMethod (member : List Char) : Bool :=
  member.contains '(' && member.contains ')'

/-- Adds a member behind the others of its sort; a blank one is no member. -/
def addMember (c : ClassNode) (text : List Char) : ClassNode :=
  let member := trim text
  if member.isEmpty then c
  else if isMethod member then { c with methods := c.methods ++ [String.ofList member] }
  else { c with attributes := c.attributes ++ [String.ofList member] }

/-- Adds members in order. -/
def addMembers (c : ClassNode) (texts : List (List Char)) : ClassNode :=
  texts.foldl addMember c

/-- The number of members. -/
def memberCount (c : ClassNode) : Nat :=
  c.attributes.length + c.methods.length

end ClassNode

/-- The sort of a relation. -/
inductive RelationKind
  | inheritance
  | composition
  | aggregation
  | association
deriving DecidableEq

/-- What an end of a relation is marked with. -/
inductive Marker
  | triangle
  | diamond
  | hollowDiamond
deriving DecidableEq

/-- The name of a marker. -/
def Marker.name : Marker → String
  | triangle => "triangle"
  | diamond => "diamond"
  | hollowDiamond => "hollow-diamond"

namespace RelationKind

/-- The name of a sort of relation. -/
def name : RelationKind → String
  | inheritance => "inheritance"
  | composition => "composition"
  | aggregation => "aggregation"
  | association => "association"

/-- The characters that write a relation. -/
def token : RelationKind → List Char
  | inheritance => ['<', '|', '-', '-']
  | composition => ['*', '-', '-']
  | aggregation => ['o', '-', '-']
  | association => ['-', '-']

/-- All sorts of relations. -/
def all : List RelationKind :=
  [inheritance, composition, aggregation, association]

/-- The relation that a text writes. -/
def ofToken? (text : List Char) : Option RelationKind :=
  all.find? fun k => k.token == text

/-- The marks at the start and at the end. -/
def markers : RelationKind → Option Marker × Option Marker
  | inheritance => (none, some .triangle)
  | composition => (some .diamond, none)
  | aggregation => (some .hollowDiamond, none)
  | association => (none, none)

end RelationKind

/-- A relation from one class to another; of an inheritance, from the heir to its parent. -/
structure ClassRelation where
  id : String
  source : String
  target : String
  kind : RelationKind
  startMarker : Option Marker
  endMarker : Option Marker
deriving DecidableEq

/-- A class diagram. -/
structure ClassDiagram where
  classes : Catalog ClassNode
  relations : List ClassRelation

namespace ClassDiagram

/-- The diagram without content. -/
def empty : ClassDiagram :=
  ⟨.empty, []⟩

instance : Inhabited ClassDiagram :=
  ⟨empty⟩

/-- Changes the class of a name, which is added without members first if it is new. -/
def adjust (d : ClassDiagram) (name : String) (update : ClassNode → ClassNode) : ClassDiagram :=
  ⟨d.classes.adjust name (.bare name) update, d.relations⟩

/-- Adds a class, unless it is there. -/
def ensure (d : ClassDiagram) (name : String) : ClassDiagram :=
  d.adjust name id

/-- Adds a relation behind the others, its ends included. -/
def relate (d : ClassDiagram) (kind : RelationKind) (source target : String) : ClassDiagram :=
  let known := (d.ensure source).ensure target
  ⟨known.classes, known.relations ++
    [⟨"class-relation-" ++ toString (known.relations.length + 1), source, target, kind,
      kind.markers.1, kind.markers.2⟩]⟩

end ClassDiagram

end DiagramLayout
