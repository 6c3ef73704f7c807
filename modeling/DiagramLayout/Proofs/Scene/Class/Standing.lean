import DiagramLayout.Proofs.Scene.Class.Nodes
import DiagramLayout.Proofs.Scene.Class.Settling

/-!
# Every class stands in a row

With any settings, the rows of the hierarchy and the rows of the grid hold every class once, and the
box of a class begins where its row and its column say. Together with the levels, which every diagram
gets after finitely many visits, this gives every class its place.
-/

namespace DiagramLayout

open Inheritance

namespace ClassDiagram

/-- The height at which a row begins, below all boxes and gaps of the rows above it. -/
def rowTop (d : ClassDiagram) (s : ClassSettings) (top gap : Float32) (rows : List (List String))
    (index : ℕ) : Float32 :=
  (rows.take index).foldl (fun y row => y + (d.tallest s row + gap)) top

/-- Where a column of a row of the hierarchy begins, behind the boxes and gaps on its left. -/
def hierarchyLeft (d : ClassDiagram) (s : ClassSettings) (rows : List (List String))
    (row : List String) (column : ℕ) : Float32 :=
  let widest := (rows.map (d.rowWidth s)).foldl Single.greater s.minLevelWidth
  (row.take column).foldl (fun x name => x + ((d.sizeOf s name).width + s.horizontalGap))
    (s.startX + (widest - d.rowWidth s row) / 2.0)

/-- Where a column of the grid begins. -/
def gridLeft (s : ClassSettings) (column : ℕ) : Float32 :=
  s.startX + Float32.ofNat column * (s.gridColumnWidth + s.horizontalGap)

end ClassDiagram

/-- The rows hold every class once, and every box has the size of its class and begins where its row and
its column say. -/
structure Scene.StandsInRows (t : Scene) (d : ClassDiagram) (s : ClassSettings)
    (rows : List (List String)) (left : List String → ℕ → Float32) (top gap : Float32) : Prop where
  once : rows.flatten.Perm d.classes.keys
  box : ∀ (index column : ℕ) (row : List String) (name : String), rows[index]? = some row →
    row[column]? = some name → ∃ c n, d.classes.find? name = some c ∧ t.nodes.find? name = some n
      ∧ n.box = ⟨left row column, d.rowTop s top gap rows index, s.boxWidth c, s.boxHeight c⟩

namespace ClassDiagram

variable {d : ClassDiagram} {s : ClassSettings} {rows : List (List String)} {row : List String}
  {top gap : Float32} {lay : Float32 → List String → Places}
  {left : List String → ℕ → Float32} {e : String × Point}

/-! ### Rows below each other -/

/-- A row is laid out column by column, all at one height. -/
def IsLaidOut (lay : Float32 → List String → Places) (left : List String → ℕ → Float32) : Prop :=
  ∀ (y : Float32) (row : List String) (column : ℕ),
    (lay y row)[column]? = row[column]?.map fun name => (name, ⟨left row column, y⟩)

/-- A box of a row begins behind the boxes and gaps on its left. -/
theorem getElem?_placeRow (d : ClassDiagram) (s : ClassSettings) (x y : Float32) (row : List String)
    (column : ℕ) :
  (d.placeRow s x y row)[column]? = row[column]?.map fun name =>
    (name, ⟨(row.take column).foldl (fun x name => x + ((d.sizeOf s name).width + s.horizontalGap)) x,
      y⟩)
  := by
  induction row generalizing x column with
  | nil => rfl
  | cons first rest ih =>
    cases column with
    | zero => rfl
    | succ column =>
      rw [placeRow, List.getElem?_cons_succ, List.getElem?_cons_succ, ih, List.take_succ_cons,
        List.foldl_cons]

/-- The rows of a hierarchy are laid out column by column. -/
theorem isLaidOut_hierarchy (d : ClassDiagram) (s : ClassSettings) (rows : List (List String)) :
  IsLaidOut (fun y row => d.placeRow s (s.startX
    + ((rows.map (d.rowWidth s)).foldl Single.greater s.minLevelWidth - d.rowWidth s row) / 2.0) y row)
    (d.hierarchyLeft s rows)
  := fun y row column => d.getElem?_placeRow s _ y row column

/-- The rows of a grid are laid out column by column. -/
theorem isLaidOut_grid (s : ClassSettings) :
  IsLaidOut (fun y row => row.mapIdx (gridPlace s y)) fun _ => gridLeft s
  := fun _ _ _ => List.getElem?_mapIdx

theorem IsLaidOut.map_fst (h : IsLaidOut lay left) (y : Float32) (row : List String) :
  (lay y row).map Prod.fst = row
  := by
  apply List.ext_getElem?
  intro column
  rw [List.getElem?_map, h, Option.map_map]
  exact Option.map_id'

/-- The places of a row are among those of the stack. -/
theorem mem_stacked {index : ℕ} (hrow : rows[index]? = some row)
    (he : e ∈ lay (d.rowTop s top gap rows index) row) :
  e ∈ d.stacked s lay gap top rows
  := by
  induction rows generalizing top index with
  | nil => contradiction
  | cons first rest ih =>
    rw [stacked, List.mem_append]
    cases index with
    | zero =>
      left
      obtain rfl := Option.some.inj hrow
      exact he
    | succ index =>
      right
      apply ih hrow he

/-- Rows that hold every class once and are laid out below each other give every class its box. -/
theorem standsInRows_of_places {settings : Settings} (hlay : IsLaidOut lay left)
    (hperm : rows.flatten.Perm d.classes.keys)
    (hplaces : d.places settings.classes = d.stacked settings.classes lay gap top rows) :
  (d.scene settings).StandsInRows d settings.classes rows left top gap
  := by
  refine ⟨hperm, ?_⟩
  intro index column row name hrow hname
  have hmem : name ∈ d.classes.keys :=
    hperm.mem_iff.mp (List.mem_flatten_of_mem (List.mem_of_getElem? hrow) (List.mem_of_getElem? hname))
  obtain ⟨c, hc⟩ := Catalog.exists_find?_iff.mpr hmem
  refine ⟨c, _, hc, find?_nodes hc, ?_⟩
  have hnames : ((d.places settings.classes).map Prod.fst).Perm d.classes.keys := by
    rw [hplaces, names_stacked fun row _ y => hlay.map_fst y row]
    exact hperm
  have hplace : (name, ⟨left row column, d.rowTop settings.classes top gap rows index⟩)
      ∈ d.places settings.classes := by
    rw [hplaces]
    apply mem_stacked hrow
    apply List.mem_of_getElem? (i := column)
    rw [hlay, hname, Option.map_some]
  rw [node, Node.labelled, Places.box, lookup_places hnames hplace]
  rfl

/-- With levels the boxes stand in the rows of the hierarchy. -/
theorem standsInRows_hierarchy (settings : Settings) (h : d.hierarchy? = some rows) :
  (d.scene settings).StandsInRows d settings.classes rows (d.hierarchyLeft settings.classes rows)
    settings.classes.startY settings.classes.verticalGap
  := by
  obtain ⟨levels, -, hlevelled⟩ := isLevelled_hierarchy h
  apply standsInRows_of_places (d.isLaidOut_hierarchy settings.classes rows) hlevelled.perm
  rw [places, h]
  apply placeRows_eq

/-- Without levels the boxes stand in the rows of the grid. -/
theorem standsInRows_grid (settings : Settings) (h : d.hierarchy? = none) :
  (d.scene settings).StandsInRows d settings.classes d.grid (fun _ => gridLeft settings.classes)
    settings.classes.gridStartY settings.classes.gridVerticalGap
  := by
  apply standsInRows_of_places (isLaidOut_grid settings.classes) (.of_eq d.flatten_grid)
  rw [places, h]
  apply gridRows_eq

/-- Whatever its inheritances are, the levels of a diagram are found by finitely many visits, each of a
class that has a level, unless every class has a parent; every class gets its own level, and then a box
in the place that its row gives. -/
theorem hasLevels_and_standsInRows (d : ClassDiagram) (settings : Settings) :
  (∃! settled, Levelling.Settles d.inheritances d.classes.size
      (.initial (roots d.inheritances d.classes.keys)) settled)
    ∧ (d.levels? = none ↔ ∀ name ∈ d.classes.keys, ∃ parent, ⟨name, parent⟩ ∈ d.inheritances)
    ∧ (∀ levels, d.levels? = some levels → d.HasLevels levels
      ∧ ∃ settled, Levelling.Settles d.inheritances d.classes.size
          (.initial (roots d.inheritances d.classes.keys)) settled
        ∧ levels = Levelling.append settled d.classes.keys)
    ∧ match d.hierarchy? with
      | some rows => (∃ levels, d.levels? = some levels ∧ d.IsLevelled levels rows)
          ∧ (d.scene settings).StandsInRows d settings.classes rows
            (d.hierarchyLeft settings.classes rows) settings.classes.startY
            settings.classes.verticalGap
      | none => (d.scene settings).StandsInRows d settings.classes d.grid
          (fun _ => gridLeft settings.classes) settings.classes.gridStartY
          settings.classes.gridVerticalGap
  := by
  refine ⟨⟨d.settled, d.settles_settled, fun _ h => h.unique d.settles_settled⟩,
    levels?_eq_none_iff, ?_, ?_⟩
  · intro levels hlevels
    refine ⟨hasLevels_of_levels? hlevels, d.settled, d.settles_settled, ?_⟩
    rw [levels?_eq] at hlevels
    split_ifs at hlevels
    exact (Option.some.inj hlevels).symm
  · split
    · rename_i rows hrows
      exact ⟨isLevelled_hierarchy hrows, standsInRows_hierarchy settings hrows⟩
    · rename_i hnone
      exact standsInRows_grid settings hnone

end ClassDiagram

end DiagramLayout
