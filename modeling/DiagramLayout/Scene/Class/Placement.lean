import DiagramLayout.Scene.Class.Box
import DiagramLayout.Scene.Class.Hierarchy

/-!
# Places of class boxes

A diagram with inheritances is placed level by level, every level centred under the widest one. In
a level, classes are ordered by the mean place of their parents in the levels above, and then by
name. A diagram without inheritances, or in which every class has parents, is placed in a grid of
columns of equal width.
-/

namespace DiagramLayout

/-- The places of classes by name. -/
abbrev Places := List (String × Point)

/-- The box of a class with a size in its place. -/
def Places.box (places : Places) (name : String) (size : Size) : Rect :=
  let corner := (places.lookup name).getD ⟨0.0, 0.0⟩
  ⟨corner.x, corner.y, size.width, size.height⟩

namespace ClassDiagram

/-- The size of the box of a class. -/
def sizeOf (d : ClassDiagram) (s : ClassSettings) (name : String) : Size :=
  ((d.classes.find? name).map s.sizeOf).getD default

/-- The greatest height of the boxes of some classes. -/
def tallest (d : ClassDiagram) (s : ClassSettings) (names : List String) : Float32 :=
  names.foldl (fun most name => Single.greater most (d.sizeOf s name).height) 0.0

/-- The classes level by level, in the order of the diagram. -/
def byLevel (d : ClassDiagram) (levels : Catalog Nat) : List (List String) :=
  let onLevel := fun level => d.classes.keys.filter fun name => levels.find? name = some level
  ((List.range (Levelling.deepest levels + 1)).map onLevel).filter fun names => !names.isEmpty

end ClassDiagram

namespace Inheritance

/-- The mean of the places of the parents of a class, a parent without a place counting as 0. -/
def meanParentPlace (graph : List Inheritance) (places : List (String × Nat)) (name : String) :
    Float32 :=
  let parents := parentsOf graph name
  let sum := parents.foldl (fun sum parent => sum + (places.lookup parent).getD 0) 0
  Float32.ofNat sum / Float32.ofNat (max 1 parents.length)

/-- Whether the first class does not stand behind the second in a level. -/
def precedes (graph : List Inheritance) (places : List (String × Nat)) (a b : String) : Bool :=
  let first := Single.rank (meanParentPlace graph places a)
  let second := Single.rank (meanParentPlace graph places b)
  first < second || (first == second && a ≤ b)

/-- The levels with their classes in order; `places` are the places in the levels above. -/
def arranged (graph : List Inheritance) (places : List (String × Nat)) :
    List (List String) → List (List String)
  | [] => []
  | names :: rest =>
    let row := names.mergeSort (precedes graph places)
    row :: arranged graph (row.zipIdx ++ places) rest

end Inheritance

namespace ClassDiagram

/-- The width of the boxes of a row with the gaps between them. -/
def rowWidth (d : ClassDiagram) (s : ClassSettings) (row : List String) : Float32 :=
  let boxes := row.foldl (fun sum name => sum + (d.sizeOf s name).width) (-(0.0 : Float32))
  boxes + Float32.ofNat (row.length - 1) * s.horizontalGap

/-- The places of a row that begins at a point. -/
def placeRow (d : ClassDiagram) (s : ClassSettings) (x y : Float32) : List String → Places
  | [] => []
  | name :: rest =>
    (name, ⟨x, y⟩) :: d.placeRow s (x + ((d.sizeOf s name).width + s.horizontalGap)) y rest

/-- The places of rows below each other, centred on a width. -/
def placeRows (d : ClassDiagram) (s : ClassSettings) (width y : Float32) :
    List (List String) → Places
  | [] => []
  | row :: rest =>
    d.placeRow s (s.startX + (width - d.rowWidth s row) / 2.0) y row
      ++ d.placeRows s width (y + (d.tallest s row + s.verticalGap)) rest

/-- The rows of the hierarchy, none when there is no inheritance or every class has parents. -/
def hierarchy? (d : ClassDiagram) : Option (List (List String)) :=
  if d.hasInheritance then
    d.levels?.map fun levels => Inheritance.arranged d.inheritances [] (d.byLevel levels)
  else none

/-- The places of the hierarchy. -/
def hierarchyPlaces (d : ClassDiagram) (s : ClassSettings) (rows : List (List String)) : Places :=
  let width := (rows.map (d.rowWidth s)).foldl Single.greater s.minLevelWidth
  d.placeRows s width s.startY rows

/-- The place of the class at a column of a row of the grid. -/
def gridPlace (s : ClassSettings) (y : Float32) (column : Nat) (name : String) : String × Point :=
  (name, ⟨s.startX + Float32.ofNat column * (s.gridColumnWidth + s.horizontalGap), y⟩)

/-- The places of rows of the grid below each other. -/
def gridRows (d : ClassDiagram) (s : ClassSettings) (y : Float32) : List (List String) → Places
  | [] => []
  | row :: rest =>
    row.mapIdx (gridPlace s y) ++ d.gridRows s (y + (d.tallest s row + s.gridVerticalGap)) rest

/-- The rows of the grid: as many classes in each as there are columns. -/
def grid (d : ClassDiagram) : List (List String) :=
  let columns := Scene.columns d.classes.size
  let rows := (d.classes.size + columns - 1) / columns
  (List.range rows).map fun row => (d.classes.keys.drop (row * columns)).take columns

/-- The places of all classes. -/
def places (d : ClassDiagram) (s : ClassSettings) : Places :=
  match d.hierarchy? with
  | some rows => d.hierarchyPlaces s rows
  | none => d.gridRows s s.gridStartY d.grid

end ClassDiagram

end DiagramLayout
