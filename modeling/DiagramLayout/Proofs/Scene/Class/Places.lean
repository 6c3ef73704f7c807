import DiagramLayout.Proofs.Scene.Class.Box
import DiagramLayout.Proofs.Scene.Class.Rows

/-!
# Places of rows

The hierarchy and the grid place rows below each other; they differ in how a row is laid out. In a row
every box ends before the next one begins, and a row begins below all boxes of the rows above it, by
at least the gap between rows.
-/

namespace DiagramLayout

open Single

namespace ClassDiagram

variable {d : ClassDiagram} {names row : List String} {rows : List (List String)} {name : String}
  {x y gap : Float32} {lay : Float32 → List String → Places} {g n : ℕ} {e f : String × Point}
  {P Q : String → String → Prop}

/-- Where the box of a class in a place ends on the right. -/
def rightEnd (d : ClassDiagram) (e : String × Point) : Float32 :=
  e.2.x + (d.sizeOf .standard e.1).width

/-- Where the box of a class in a place ends below. -/
def lowerEnd (d : ClassDiagram) (e : String × Point) : Float32 :=
  e.2.y + (d.sizeOf .standard e.1).height

/-! ### One row -/

/-- The places of a row at a height, each box beginning where the one before it has ended. -/
structure IsRow (d : ClassDiagram) (y : Float32) (row : List String) (places : Places) : Prop where
  names : places.map Prod.fst = row
  level : ∀ e ∈ places, e.2.y = y
  nonneg : ∀ e ∈ places, 0.0 ≤ e.2.x
  apart : places.Pairwise fun e f => d.rightEnd e ≤ f.2.x

/-- A class has a width that is not negative. -/
theorem nonneg_width (hname : name ∈ d.classes.keys) :
  0.0 ≤ (d.sizeOf .standard name).width
  := by
  obtain ⟨w, hw, hlow, -⟩ := exists_isWhole_width hname
  apply hw.nonneg
  omega

theorem isWhole_horizontalGap :
  IsWhole ClassSettings.standard.horizontalGap 90
  := isWhole_ofNat (n := 90) (by norm_num)

theorem nonneg_horizontalGap :
  0.0 ≤ ClassSettings.standard.horizontalGap
  := isWhole_horizontalGap.nonneg (by norm_num)

/-- No place of a row is in front of its beginning. -/
theorem le_of_mem_placeRow (hx : 0.0 ≤ x) (hrow : ∀ name ∈ row, name ∈ d.classes.keys)
    (he : e ∈ d.placeRow .standard x y row) :
  x ≤ e.2.x
  := by
  induction row generalizing x with
  | nil => contradiction
  | cons name rest ih =>
    obtain ⟨hname, hrest⟩ := List.forall_mem_cons.mp hrow
    have hstep := nonneg_add (nonneg_width hname) nonneg_horizontalGap
    rcases List.mem_cons.mp he with rfl | he
    · apply Single.le_refl (zero_le_iff.mp hx).1
    · apply Single.le_trans (le_add (infinite_lt_of_nonneg hx) hstep)
      apply ih (nonneg_add hx hstep) hrest he

/-- A row of the hierarchy. -/
theorem isRow_placeRow (hx : 0.0 ≤ x) (hrow : ∀ name ∈ row, name ∈ d.classes.keys) :
  d.IsRow y row (d.placeRow .standard x y row)
  := by
  induction row generalizing x with
  | nil => exact ⟨rfl, nofun, nofun, .nil⟩
  | cons name rest ih =>
    obtain ⟨hname, hrest⟩ := List.forall_mem_cons.mp hrow
    have hwidth := nonneg_width hname
    have hstep := nonneg_add hwidth nonneg_horizontalGap
    have hplaces := ih (nonneg_add hx hstep) hrest
    constructor
    case names => rw [placeRow, List.map_cons, hplaces.names]
    case level => exact List.forall_mem_cons.mpr ⟨rfl, hplaces.level⟩
    case nonneg => exact List.forall_mem_cons.mpr ⟨hx, hplaces.nonneg⟩
    case apart =>
      apply List.pairwise_cons.mpr ⟨_, hplaces.apart⟩
      intro f hf
      have hle := le_of_mem_placeRow (nonneg_add hx hstep) hrest hf
      apply Single.le_trans _ hle
      apply (isNearest_add_of_nonneg hx hwidth).le (isNearest_add_of_nonneg hx hstep)
      have hle' := (le_iff.mp (le_add (infinite_lt_of_nonneg hwidth) nonneg_horizontalGap)).2.2
      linarith

/-- The beginning of a column of the grid. -/
theorem isWhole_column (column : ℕ) (h : column ≤ 20002) :
  IsWhole (ClassSettings.standard.startX + Float32.ofNat column
    * (ClassSettings.standard.gridColumnWidth + ClassSettings.standard.horizontalGap))
    (90 + column * (320 + 90))
  := by
  have hstart : IsWhole ClassSettings.standard.startX 90 := isWhole_ofNat (n := 90) (by norm_num)
  have hwidth : IsWhole ClassSettings.standard.gridColumnWidth 320 :=
    isWhole_ofNat (n := 320) (by norm_num)
  apply isWhole_place hstart (hwidth.add isWhole_horizontalGap (by norm_num)) column (by omega)
    (by rw [abs_le]; omega) (by rw [abs_le]; omega)

/-- A row of the grid. -/
theorem isRow_gridRow (hrow : ∀ name ∈ row, name ∈ d.classes.keys) (hlength : row.length ≤ 20002) :
  d.IsRow y row (row.mapIdx (gridPlace .standard y))
  := by
  constructor
  case names =>
    apply List.ext_getElem
    · rw [List.length_map, List.length_mapIdx]
    · intro column _ _
      rw [List.getElem_map, List.getElem_mapIdx]
      rfl
  case level =>
    intro e he
    obtain ⟨column, -, rfl⟩ := List.mem_mapIdx.mp he
    rfl
  case nonneg =>
    intro e he
    obtain ⟨column, hcolumn, rfl⟩ := List.mem_mapIdx.mp he
    apply (isWhole_column column (by omega)).nonneg
    omega
  case apart =>
    rw [List.pairwise_iff_getElem]
    intro i j hi hj hlt
    rw [List.length_mapIdx] at hi hj
    rw [List.getElem_mapIdx, List.getElem_mapIdx]
    obtain ⟨w, hw, hlow, hhigh⟩ := exists_isWhole_width (hrow _ (List.getElem_mem hi))
    have hleft := isWhole_column i (by omega)
    have hright := isWhole_column j (by omega)
    have hend := hleft.add hw (by rw [abs_le]; omega)
    apply (hend.le_iff hright).mpr
    omega

/-! ### Rows below each other -/

/-- The places of rows below each other, when `lay` places one row at a height. -/
def stacked (d : ClassDiagram) (s : ClassSettings) (lay : Float32 → List String → Places)
    (gap y : Float32) : List (List String) → Places
  | [] => []
  | row :: rest => lay y row ++ d.stacked s lay gap (y + (d.tallest s row + gap)) rest

/-- A hierarchy is a stack of rows, each in the middle of the widest. -/
theorem placeRows_eq (s : ClassSettings) (width y : Float32) (rows : List (List String)) :
  d.placeRows s width y rows
    = d.stacked s (fun y row => d.placeRow s (s.startX + (width - d.rowWidth s row) / 2.0) y row)
        s.verticalGap y rows
  := by
  induction rows generalizing y with
  | nil => rfl
  | cons row rest ih => rw [placeRows, stacked, ih]

/-- A grid is a stack of rows with fixed columns. -/
theorem gridRows_eq (s : ClassSettings) (y : Float32) (rows : List (List String)) :
  d.gridRows s y rows
    = d.stacked s (fun y row => row.mapIdx (gridPlace s y)) s.gridVerticalGap y rows
  := by
  induction rows generalizing y with
  | nil => rfl
  | cons row rest ih => rw [gridRows, stacked, ih]

/-- A stack has the names of its rows, one row after the other. -/
theorem names_stacked {s : ClassSettings}
    (hlay : ∀ row ∈ rows, ∀ y, (lay y row).map Prod.fst = row) :
  (d.stacked s lay gap y rows).map Prod.fst = rows.flatten
  := by
  induction rows generalizing y with
  | nil => rfl
  | cons row rest ih =>
    obtain ⟨hrow, hrest⟩ := List.forall_mem_cons.mp hlay
    rw [stacked, List.map_append, hrow y, ih hrest, List.flatten_cons]

/-- What the boxes of classes below each other take at most, with the gaps. -/
def extent (d : ClassDiagram) (names : List String) : ℕ :=
  (names.map fun name => d.tallness name + 120).sum

/-- A class is not taller than the classes below each other, and leaves room for a gap. -/
theorem tallness_le_extent (h : name ∈ names) :
  d.tallness name + 120 ≤ d.extent names
  := List.le_sum_of_mem (List.mem_map_of_mem h)

theorem extent_append (names names' : List String) :
  d.extent (names ++ names') = d.extent names + d.extent names'
  := by
  rw [extent, List.map_append, List.sum_append]
  rfl

/-- The step from a row to the next one is enough for every box of the row and a gap. -/
theorem exists_isWhole_step (hd : d.memberCount ≤ 10000)
    (hrow : row ≠ [] ∧ ∀ name ∈ row, name ∈ d.classes.keys) (hgap : IsWhole gap g) (hg : g ≤ 120)
    (hbound : d.extent row ≤ 2 ^ 23) :
  ∃ t : ℕ, IsWhole (d.tallest .standard row + gap) (t : ℕ) ∧ t ≤ d.extent row
    ∧ ∀ name ∈ row, d.tallness name + g ≤ t
  := by
  obtain ⟨hne, hrow⟩ := hrow
  have htallest : d.tallest .standard row
      = (row.map fun name => (d.sizeOf .standard name).height).foldl greater 0.0 := by
    rw [tallest, List.foldl_map]
  have hwhole : ∃ t : ℕ, IsWhole (d.tallest .standard row) t ∧ t + 120 ≤ d.extent row := by
    rw [htallest]
    apply foldl_greater_induction (P := fun x => ∃ t : ℕ, IsWhole x t ∧ t + 120 ≤ d.extent row)
    · obtain ⟨name, hname⟩ := List.exists_mem_of_ne_nil row hne
      have hle := d.tallness_le_extent hname
      exact ⟨0, isWhole_zero, by omega⟩
    · intro x hx
      obtain ⟨name, hname, rfl⟩ := List.mem_map.mp hx
      exact ⟨_, isWhole_height (hrow name hname) hd, d.tallness_le_extent hname⟩
  obtain ⟨t, ht, hle⟩ := hwhole
  refine ⟨t + g, ?_, by omega, ?_⟩
  · rw [Nat.cast_add]
    apply ht.add hgap
    rw [abs_le]
    omega
  · intro name hname
    have hheight := isWhole_height (hrow name hname) hd
    have hmem : (d.sizeOf .standard name).height
        ∈ row.map fun name => (d.sizeOf .standard name).height := List.mem_map_of_mem hname
    have hle := le_foldl_greater hheight.isNumber (List.mem_cons_of_mem 0.0 hmem)
    rw [← htallest, hheight.le_iff ht] at hle
    omega

/-- The rows hold classes of the diagram, each row at least one, and fit below a height. -/
structure Fits (d : ClassDiagram) (n : ℕ) (rows : List (List String)) : Prop where
  nonempty : ∀ row ∈ rows, row ≠ []
  known : ∀ row ∈ rows, ∀ name ∈ row, name ∈ d.classes.keys
  bounded : n + d.extent rows.flatten ≤ 2 ^ 23

/-- The row fits, and the rest fits below it. -/
theorem Fits.step (h : d.Fits n (row :: rows)) (hd : d.memberCount ≤ 10000)
    (hgap : IsWhole gap g) (hg : g ≤ 120) (hy : IsWhole y n) :
  ∃ t : ℕ, IsWhole (y + (d.tallest .standard row + gap)) (n + t : ℕ) ∧ t ≤ d.extent row
    ∧ d.Fits (n + t) rows ∧ ∀ name ∈ row, d.tallness name + g ≤ t
  := by
  have hbound := h.bounded
  rw [List.flatten_cons, extent_append] at hbound
  obtain ⟨t, ht, hle, htall⟩ := exists_isWhole_step hd
    ⟨h.nonempty row List.mem_cons_self, h.known row List.mem_cons_self⟩ hgap hg (by omega)
  refine ⟨t, ?_, hle, ?_, htall⟩
  · rw [Nat.cast_add]
    apply hy.add ht
    rw [abs_le]
    omega
  · constructor
    case nonempty => exact fun row hrow => h.nonempty row (List.mem_cons_of_mem _ hrow)
    case known => exact fun row hrow => h.known row (List.mem_cons_of_mem _ hrow)
    case bounded => omega

/-- Every box begins on the canvas, a whole number of units below the first row, and has an end. -/
theorem exists_isWhole_of_mem_stacked (hrows : d.Fits n rows) (hd : d.memberCount ≤ 10000)
    (hgap : IsWhole gap g) (hg : g ≤ 120) (hlay : ∀ row ∈ rows, ∀ y, d.IsRow y row (lay y row))
    (hy : IsWhole y n) (he : e ∈ d.stacked .standard lay gap y rows) :
  0.0 ≤ e.2.x ∧ ∃ m : ℕ, IsWhole e.2.y m ∧ n ≤ m ∧ m + d.tallness e.1 ≤ 2 ^ 23
  := by
  induction rows generalizing y n with
  | nil => contradiction
  | cons row rest ih =>
    obtain ⟨hrow, hrest⟩ := List.forall_mem_cons.mp hlay
    obtain ⟨t, ht, -, hfits, htall⟩ := hrows.step hd hgap hg hy
    rcases List.mem_append.mp he with he | he
    · have hname : e.1 ∈ row := (hrow y).names ▸ List.mem_map_of_mem he
      have hbound := hfits.bounded
      have hle := htall e.1 hname
      use (hrow y).nonneg e he
      rw [(hrow y).level e he]
      exact ⟨n, hy, le_rfl, by omega⟩
    · obtain ⟨hx, m, hm, hle, hbound⟩ := ih hfits hrest ht he
      exact ⟨hx, m, hm, by omega, hbound⟩

/-- The box of `e` stands on the left of the box of `f` in one row, or above it by the gap. -/
def Stands (d : ClassDiagram) (g : ℕ) (P Q : String → String → Prop) (e f : String × Point) : Prop :=
  P e.1 f.1 ∧ e.2.y = f.2.y ∧ d.rightEnd e ≤ f.2.x
    ∨ Q e.1 f.1 ∧ IsNumber f.2.y ∧ value (d.lowerEnd e) + g ≤ value f.2.y

/-- Of two places, the first one stands on the left of the second one or above it. -/
theorem pairwise_stacked (hrows : d.Fits n rows) (hd : d.memberCount ≤ 10000)
    (hgap : IsWhole gap g) (hg : g ≤ 120) (hlay : ∀ row ∈ rows, ∀ y, d.IsRow y row (lay y row))
    (hy : IsWhole y n) (hP : ∀ row ∈ rows, ∀ a ∈ row, ∀ b ∈ row, P a b)
    (hQ : rows.Pairwise fun upper lower => ∀ a ∈ upper, ∀ b ∈ lower, Q a b) :
  (d.stacked .standard lay gap y rows).Pairwise (d.Stands g P Q)
  := by
  induction rows generalizing y n with
  | nil => apply List.Pairwise.nil
  | cons row rest ih =>
    obtain ⟨hrow, hrest⟩ := List.forall_mem_cons.mp hlay
    obtain ⟨hProw, hPrest⟩ := List.forall_mem_cons.mp hP
    obtain ⟨hQrow, hQrest⟩ := List.pairwise_cons.mp hQ
    obtain ⟨t, ht, -, hfits, htall⟩ := hrows.step hd hgap hg hy
    have hname : ∀ e ∈ lay y row, e.1 ∈ row := fun e he =>
      (hrow y).names ▸ List.mem_map_of_mem he
    rw [stacked, List.pairwise_append]
    refine ⟨?_, ih hfits hrest ht hPrest hQrest, ?_⟩
    · apply (hrow y).apart.imp_of_mem
      intro e f he hf hapart
      left
      use hProw e.1 (hname e he) f.1 (hname f hf)
      rw [(hrow y).level e he, (hrow y).level f hf]
      exact ⟨rfl, hapart⟩
    · intro e he f hf
      -- The first box stands in the upper row, which ends by the gap above all rows below it.
      right
      have hflat : f.1 ∈ rest.flatten := by
        rw [← names_stacked fun row hrow y => (hrest row hrow y).names]
        apply List.mem_map_of_mem hf
      obtain ⟨lower, hlower, hflower⟩ := List.mem_flatten.mp hflat
      use hQrow lower hlower e.1 (hname e he) f.1 hflower
      obtain ⟨-, m, hm, hle, -⟩ := exists_isWhole_of_mem_stacked hfits hd hgap hg hrest ht hf
      use hm.isNumber
      have hknown := hrows.known row List.mem_cons_self e.1 (hname e he)
      have hheight := isWhole_height hknown hd
      have hlow := htall e.1 (hname e he)
      have hbound := hfits.bounded
      have hend := hy.add hheight (by rw [abs_le]; omega)
      rw [lowerEnd, (hrow y).level e he, hend.value_eq, hm.value_eq]
      exact_mod_cast (by omega : n + d.tallness e.1 + g ≤ m)

/-! ### The hierarchy -/

/-- The widths of a row are summed exactly. -/
theorem exists_isWhole_sum {w : ℤ} (hrow : ∀ name ∈ row, name ∈ d.classes.keys) (hx : IsWhole x w)
    (hw : 0 ≤ w) (hbound : w + 320 * row.length ≤ 2 ^ 24) :
  ∃ sum : ℤ, IsWhole (row.foldl (fun sum name => sum + (d.sizeOf .standard name).width) x) sum
    ∧ 0 ≤ sum ∧ sum ≤ w + 320 * row.length
  := by
  induction row generalizing x w with
  | nil => exact ⟨w, hx, hw, by simp⟩
  | cons name rest ih =>
    obtain ⟨hname, hrest⟩ := List.forall_mem_cons.mp hrow
    obtain ⟨v, hv, hlow, hhigh⟩ := exists_isWhole_width hname
    rw [List.length_cons] at hbound ⊢
    push_cast at hbound ⊢
    obtain ⟨sum, hsum, hnonneg, hle⟩ := ih hrest (hx.add hv (by rw [abs_le]; omega)) (by omega)
      (by omega)
    exact ⟨sum, hsum, hnonneg, by omega⟩

/-- The width of a row is whole and within bounds. -/
theorem exists_isWhole_rowWidth (hrow : ∀ name ∈ row, name ∈ d.classes.keys)
    (hlength : row.length ≤ 20002) :
  ∃ w : ℤ, IsWhole (d.rowWidth .standard row) w ∧ w < 2 ^ 23 ∧ 0 ≤ w
  := by
  obtain ⟨sum, hsum, hnonneg, hle⟩ := exists_isWhole_sum hrow isWhole_zero.neg (by norm_num)
    (by omega)
  have hgaps : IsWhole (Float32.ofNat (row.length - 1)) (row.length - 1 : ℕ) :=
    isWhole_ofNat (by omega)
  have hproduct := hgaps.mul isWhole_horizontalGap (by rw [abs_le]; omega)
  refine ⟨_, hsum.add hproduct (by rw [abs_le]; omega), by omega, by omega⟩

/-- A row that is centred on the widest one does not begin on the left of the canvas. -/
theorem nonneg_centred {width : Float32} {w v : ℤ} (hwidth : IsWhole width w) (hx : IsWhole x v)
    (hv : 0 ≤ v) (hvw : v ≤ w) (hw : w < 2 ^ 23) :
  0.0 ≤ ClassSettings.standard.startX + (width - x) / 2.0
  := by
  have hstart : IsWhole ClassSettings.standard.startX 90 := isWhole_ofNat (n := 90) (by norm_num)
  have hrest := hwidth.sub hx (by rw [abs_le]; omega)
  have hhalf := hrest.div isWhole_two (by rw [abs_lt]; omega) (by norm_num) (by norm_num)
  apply nonneg_add (hstart.nonneg (by norm_num))
  apply zero_le_iff.mpr ⟨hhalf.isRational.isNumber, _⟩
  have hle := hhalf.le_value (k := 0) (by omega)
  exact_mod_cast hle

/-- The widest row of the hierarchy, or the least width of a level. -/
theorem exists_isWhole_widest (hrows : ∀ row ∈ rows, ∀ name ∈ row, name ∈ d.classes.keys)
    (hlength : ∀ row ∈ rows, row.length ≤ 20002) :
  ∃ w : ℤ, IsWhole ((rows.map (d.rowWidth .standard)).foldl greater
    ClassSettings.standard.minLevelWidth) w ∧ w < 2 ^ 23
  := by
  have hmin : IsWhole ClassSettings.standard.minLevelWidth 500 :=
    isWhole_ofNat (n := 500) (by norm_num)
  apply foldl_greater_induction (P := fun x => ∃ w : ℤ, IsWhole x w ∧ w < 2 ^ 23)
  · exact ⟨500, hmin, by norm_num⟩
  · intro x hx
    obtain ⟨widest, hwidest, rfl⟩ := List.mem_map.mp hx
    obtain ⟨w, hw, hlt, -⟩ := exists_isWhole_rowWidth (hrows widest hwidest)
      (hlength widest hwidest)
    exact ⟨w, hw, hlt⟩

/-- No row is wider than the widest. -/
theorem rowWidth_le_widest {v w : ℤ} (hrow : row ∈ rows) (hv : IsWhole (d.rowWidth .standard row) v)
    (hw : IsWhole ((rows.map (d.rowWidth .standard)).foldl greater
      ClassSettings.standard.minLevelWidth) w) :
  v ≤ w
  := by
  rw [← hv.le_iff hw]
  apply le_foldl_greater hv.isNumber (List.mem_cons_of_mem _ (List.mem_map_of_mem hrow))

/-- The rows of a hierarchy are placed as rows. -/
theorem isRow_hierarchy (hrows : ∀ row ∈ rows, ∀ name ∈ row, name ∈ d.classes.keys)
    (hlength : ∀ row ∈ rows, row.length ≤ 20002) (hrow : row ∈ rows) (y : Float32) :
  d.IsRow y row (d.placeRow .standard (ClassSettings.standard.startX
    + ((rows.map (d.rowWidth .standard)).foldl greater ClassSettings.standard.minLevelWidth
      - d.rowWidth .standard row) / 2.0) y row)
  := by
  obtain ⟨v, hv, -, hnonneg⟩ := exists_isWhole_rowWidth (hrows row hrow) (hlength row hrow)
  obtain ⟨w, hw, hlt⟩ := exists_isWhole_widest hrows hlength
  apply isRow_placeRow _ (hrows row hrow)
  apply nonneg_centred hw hv hnonneg (rowWidth_le_widest hrow hv hw) hlt

/-! ### All places -/

/-- The places of all classes, one for each, in rows below each other. -/
structure IsPlacement (d : ClassDiagram) (g : ℕ) (P Q : String → String → Prop) (places : Places) :
    Prop where
  perm : (places.map Prod.fst).Perm d.classes.keys
  nonneg : ∀ e ∈ places, 0.0 ≤ e.2.x ∧ ∃ m : ℕ, IsWhole e.2.y m ∧ m + d.tallness e.1 ≤ 2 ^ 23
  stands : places.Pairwise (d.Stands g P Q)

theorem length_le_of_mem (hperm : rows.flatten.Perm d.classes.keys) (hrow : row ∈ rows) :
  row.length ≤ d.classes.size
  := by
  rw [← length_keys, ← hperm.length_eq]
  apply (List.sublist_flatten_of_mem hrow).length_le

/-- Rows that are placed below each other make a placement of all classes. -/
theorem isPlacement_stacked (hd : d.IsModerate) (hperm : rows.flatten.Perm d.classes.keys)
    (hnonempty : ∀ row ∈ rows, row ≠ []) (hgap : IsWhole gap g) (hg : g ≤ 120)
    (hlay : ∀ row ∈ rows, ∀ y, d.IsRow y row (lay y row)) (hy : IsWhole y n) (hn : n ≤ 100)
    (hP : ∀ row ∈ rows, ∀ a ∈ row, ∀ b ∈ row, P a b)
    (hQ : rows.Pairwise fun upper lower => ∀ a ∈ upper, ∀ b ∈ lower, Q a b) :
  d.IsPlacement g P Q (d.stacked .standard lay gap y rows)
  := by
  have hextent : d.extent rows.flatten = d.extent d.classes.keys := (hperm.map _).sum_eq
  have hsum := sum_tallness_le hd
  have hfits : d.Fits n rows := by
    refine ⟨hnonempty, ?_, ?_⟩
    · intro row hrow name hname
      apply hperm.mem_iff.mp (List.mem_flatten_of_mem hrow hname)
    · rw [hextent, extent]
      omega
  constructor
  case perm =>
    rw [names_stacked fun row hrow y => (hlay row hrow y).names]
    exact hperm
  case nonneg =>
    intro e he
    obtain ⟨hx, m, hm, -, hbound⟩ := exists_isWhole_of_mem_stacked hfits hd.members hgap hg hlay hy he
    exact ⟨hx, m, hm, hbound⟩
  case stands => apply pairwise_stacked hfits hd.members hgap hg hlay hy hP hQ

/-- In the hierarchy, rows are levels. -/
theorem isPlacement_hierarchy {levels : Catalog ℕ} (hd : d.IsModerate)
    (hrows : d.IsLevelled levels rows) :
  d.IsPlacement 120 (IsBeside levels) (IsAbove levels) (d.hierarchyPlaces .standard rows)
  := by
  have hstart : IsWhole ClassSettings.standard.startY (90 : ℕ) :=
    isWhole_ofNat (n := 90) (by norm_num)
  have hgap : IsWhole ClassSettings.standard.verticalGap (120 : ℕ) :=
    isWhole_ofNat (n := 120) (by norm_num)
  rw [hierarchyPlaces, placeRows_eq]
  apply isPlacement_stacked hd hrows.perm hrows.nonempty hgap le_rfl _ hstart (by norm_num)
    hrows.beside hrows.above
  intro row hrow y
  apply isRow_hierarchy _ _ hrow
  · intro row hrow name hname
    apply hrows.perm.mem_iff.mp (List.mem_flatten_of_mem hrow hname)
  · intro row hrow
    apply (length_le_of_mem hrows.perm hrow).trans hd.size

/-- The grid is a placement of all classes. -/
theorem isPlacement_grid (hd : d.IsModerate) :
  d.IsPlacement 90 (fun _ _ => True) (fun _ _ => True)
    (d.gridRows .standard ClassSettings.standard.gridStartY d.grid)
  := by
  have hstart : IsWhole ClassSettings.standard.gridStartY (100 : ℕ) :=
    isWhole_ofNat (n := 100) (by norm_num)
  have hgap : IsWhole ClassSettings.standard.gridVerticalGap (90 : ℕ) :=
    isWhole_ofNat (n := 90) (by norm_num)
  have hperm : d.grid.flatten.Perm d.classes.keys := .of_eq d.flatten_grid
  rw [gridRows_eq]
  apply isPlacement_stacked hd hperm (fun row => nonempty_of_mem_grid) hgap (by norm_num) _ hstart
    le_rfl
  · intros
    trivial
  · apply List.pairwise_of_forall
    intros
    trivial
  · intro row hrow y
    apply isRow_gridRow
    · intro name hname
      apply hperm.mem_iff.mp (List.mem_flatten_of_mem hrow hname)
    · apply (length_le_of_mem hperm hrow).trans hd.size

/-- A placement is one for a smaller gap and for weaker relations as well. -/
theorem IsPlacement.mono {g' : ℕ} {P' Q' : String → String → Prop} {places : Places}
    (h : d.IsPlacement g P Q places) (hg : g' ≤ g) (hP : ∀ a b, P a b → P' a b)
    (hQ : ∀ a b, Q a b → Q' a b) :
  d.IsPlacement g' P' Q' places
  := by
  use h.perm, h.nonneg
  apply h.stands.imp
  intro e f hef
  apply hef.imp
  · exact fun h => ⟨hP _ _ h.1, h.2⟩
  · rintro ⟨hbelow, hnumber, hle⟩
    refine ⟨hQ _ _ hbelow, hnumber, ?_⟩
    have hcast : (g' : ℚ) ≤ g := by exact_mod_cast hg
    linarith

/-- All classes have places that are apart from each other, with or without a hierarchy. -/
theorem isPlacement_places (hd : d.IsModerate) :
  d.IsPlacement 0 (fun _ _ => True) (fun _ _ => True) (d.places .standard)
  := by
  rw [places]
  cases hrows : d.hierarchy? with
  | none =>
    apply (isPlacement_grid hd).mono (Nat.zero_le _)
    · exact fun _ _ => id
    · exact fun _ _ => id
  | some rows =>
    obtain ⟨levels, -, hlevelled⟩ := isLevelled_hierarchy hrows
    apply (isPlacement_hierarchy hd hlevelled).mono (Nat.zero_le _)
    · exact fun _ _ _ => trivial
    · exact fun _ _ _ => trivial

end ClassDiagram

end DiagramLayout
