import DiagramLayout.Proofs.Scene.Class.Levelling
import DiagramLayout.Scene.Class.Placement
import Mathlib.Data.List.Fold
import Mathlib.Data.List.MinMax
import Mathlib.Data.List.Nodup

/-!
# Rows of classes

Every class stands in exactly one row of the hierarchy and in exactly one row of the grid. The rows of
the hierarchy are the levels from top to bottom, and arranging a row keeps the classes in it.
-/

namespace DiagramLayout

namespace Inheritance

variable {graph : List Inheritance} {places : List (String × ℕ)} {rows : List (List String)}
  {row : List String}

/-- An arranged row holds the classes of one of the rows. -/
theorem exists_perm_of_mem_arranged (h : row ∈ arranged graph places rows) :
  ∃ names ∈ rows, row.Perm names
  := by
  induction rows generalizing places with
  | nil => contradiction
  | cons names rest ih =>
    rcases List.mem_cons.mp h with rfl | h
    · exact ⟨names, List.mem_cons_self, List.mergeSort_perm names _⟩
    · obtain ⟨names', hnames', hperm⟩ := ih h
      exact ⟨names', List.mem_cons_of_mem names hnames', hperm⟩

/-- Arranging loses and repeats no class. -/
theorem flatten_arranged_perm (graph : List Inheritance) (places : List (String × ℕ))
    (rows : List (List String)) :
  (arranged graph places rows).flatten.Perm rows.flatten
  := by
  induction rows generalizing places with
  | nil => apply List.Perm.refl
  | cons names rest ih =>
    rw [arranged, List.flatten_cons, List.flatten_cons]
    apply (List.mergeSort_perm names _).append (ih _)

/-- Arranging moves classes within their rows only. -/
theorem pairwise_arranged {Q : String → String → Prop}
    (h : rows.Pairwise fun upper lower => ∀ a ∈ upper, ∀ b ∈ lower, Q a b) :
  (arranged graph places rows).Pairwise fun upper lower => ∀ a ∈ upper, ∀ b ∈ lower, Q a b
  := by
  induction rows generalizing places with
  | nil => apply List.Pairwise.nil
  | cons names rest ih =>
    obtain ⟨hnames, hrest⟩ := List.pairwise_cons.mp h
    apply List.pairwise_cons.mpr ⟨_, ih hrest⟩
    intro lower hlower a ha b hb
    obtain ⟨names', hnames', hperm⟩ := exists_perm_of_mem_arranged hlower
    apply hnames names' hnames' a ((List.mergeSort_perm names _).mem_iff.mp ha) b
      (hperm.mem_iff.mp hb)

end Inheritance

namespace ClassDiagram

variable {d : ClassDiagram} {levels : Catalog ℕ} {rows : List (List String)} {row : List String}
  {name : String} {level : ℕ}

/-! ### Levels -/

theorem le_deepest (h : levels.find? name = some level) :
  level ≤ Levelling.deepest levels
  := by
  have hmem : level ∈ levels.values := Catalog.mem_values_of_find? h
  rw [Levelling.deepest, List.foldl_eq_foldr]
  apply List.le_max_of_le' 0 hmem le_rfl

/-- Whether the class stands above the other one. -/
def IsAbove (levels : Catalog ℕ) (upper lower : String) : Prop :=
  ∃ m n, levels.find? upper = some m ∧ levels.find? lower = some n ∧ m < n

/-- Whether the classes stand on one level. -/
def IsBeside (levels : Catalog ℕ) (a b : String) : Prop :=
  ∃ level, levels.find? a = some level ∧ levels.find? b = some level

/-- A row holds the classes of one level. -/
theorem mem_byLevel (h : row ∈ d.byLevel levels) :
  ∃ level, row = d.classes.keys.filter fun name => levels.find? name = some level
  := by
  rw [byLevel, List.mem_filter, List.mem_map] at h
  obtain ⟨⟨level, -, rfl⟩, -⟩ := h
  exact ⟨level, rfl⟩

/-- The classes of a row stand on one level. -/
theorem isBeside_of_mem_byLevel (h : row ∈ d.byLevel levels) :
  ∀ a ∈ row, ∀ b ∈ row, IsBeside levels a b
  := by
  obtain ⟨level, rfl⟩ := mem_byLevel h
  intro a ha b hb
  rw [List.mem_filter, decide_eq_true_eq] at ha hb
  exact ⟨level, ha.2, hb.2⟩

/-- The rows stand in the order of levels. -/
theorem pairwise_byLevel (d : ClassDiagram) (levels : Catalog ℕ) :
  (d.byLevel levels).Pairwise fun upper lower => ∀ a ∈ upper, ∀ b ∈ lower, IsAbove levels a b
  := by
  rw [byLevel]
  apply List.Pairwise.filter
  rw [List.pairwise_map]
  apply List.pairwise_lt_range.imp
  intro m n hlt a ha b hb
  rw [List.mem_filter, decide_eq_true_eq] at ha hb
  exact ⟨m, n, ha.2, hb.2, hlt⟩

/-- The rows hold all classes that have levels. -/
theorem mem_flatten_byLevel :
  name ∈ (d.byLevel levels).flatten ↔ name ∈ d.classes.keys ∧ name ∈ levels.keys
  := by
  rw [List.mem_flatten]
  constructor
  · rintro ⟨row, hrow, hname⟩
    obtain ⟨level, rfl⟩ := mem_byLevel hrow
    rw [List.mem_filter, decide_eq_true_eq] at hname
    exact ⟨hname.1, Catalog.exists_find?_iff.mp ⟨level, hname.2⟩⟩
  · rintro ⟨hname, hlevels⟩
    obtain ⟨level, hlevel⟩ := Catalog.exists_find?_iff.mpr hlevels
    have hmem : name ∈ d.classes.keys.filter fun name => levels.find? name = some level := by
      rw [List.mem_filter, decide_eq_true_eq]
      exact ⟨hname, hlevel⟩
    refine ⟨_, ?_, hmem⟩
    rw [byLevel, List.mem_filter, List.mem_map]
    refine ⟨⟨level, ?_, rfl⟩, ?_⟩
    · rw [List.mem_range]
      apply Nat.lt_succ_of_le (le_deepest hlevel)
    · rw [Bool.not_eq_true', List.isEmpty_eq_false_iff]
      apply List.ne_nil_of_mem hmem

/-- Every class with a level stands in exactly one row. -/
theorem flatten_byLevel_perm (h : ∀ name ∈ d.classes.keys, name ∈ levels.keys) :
  (d.byLevel levels).flatten.Perm d.classes.keys
  := by
  have hkeys : d.classes.keys.Nodup := d.classes.nodup
  rw [List.perm_ext_iff_of_nodup _ hkeys]
  · intro name
    rw [mem_flatten_byLevel, and_iff_left_of_imp (h name)]
  · rw [List.nodup_flatten]
    constructor
    · intro row hrow
      obtain ⟨level, rfl⟩ := mem_byLevel hrow
      apply hkeys.filter
    · apply (d.pairwise_byLevel levels).imp
      intro upper lower habove name hupper hlower
      obtain ⟨m, n, hm, hn, hlt⟩ := habove name hupper name hlower
      rw [hm, Option.some.injEq] at hn
      apply hlt.ne hn

/-! ### The rows of the hierarchy and of the grid -/

theorem nonempty_of_mem_byLevel (h : row ∈ d.byLevel levels) :
  row ≠ []
  := by
  rw [byLevel, List.mem_filter, Bool.not_eq_true', List.isEmpty_eq_false_iff] at h
  exact h.2

/-- The rows hold every class once, and stand in the order of levels. -/
structure IsLevelled (d : ClassDiagram) (levels : Catalog ℕ) (rows : List (List String)) : Prop where
  nonempty : ∀ row ∈ rows, row ≠ []
  perm : rows.flatten.Perm d.classes.keys
  beside : ∀ row ∈ rows, ∀ a ∈ row, ∀ b ∈ row, IsBeside levels a b
  above : rows.Pairwise fun upper lower => ∀ a ∈ upper, ∀ b ∈ lower, IsAbove levels a b

/-- The rows of a hierarchy are those of the levels. -/
theorem isLevelled_hierarchy (h : d.hierarchy? = some rows) :
  ∃ levels, d.levels? = some levels ∧ d.IsLevelled levels rows
  := by
  rw [hierarchy?] at h
  split_ifs at h with hinherits
  obtain ⟨levels, hlevels, rfl⟩ := Option.map_eq_some_iff.mp h
  use levels, hlevels
  constructor
  case nonempty =>
    rintro _ hrow rfl
    obtain ⟨names, hnames, hperm⟩ := Inheritance.exists_perm_of_mem_arranged hrow
    apply nonempty_of_mem_byLevel hnames hperm.nil_eq.symm
  case perm =>
    apply (Inheritance.flatten_arranged_perm _ _ _).trans
    apply flatten_byLevel_perm
    intro name
    apply (mem_keys_levels hlevels).mpr
  case beside =>
    intro row hrow a ha b hb
    obtain ⟨names, hnames, hperm⟩ := Inheritance.exists_perm_of_mem_arranged hrow
    apply isBeside_of_mem_byLevel hnames a (hperm.mem_iff.mp ha) b (hperm.mem_iff.mp hb)
  case above => apply Inheritance.pairwise_arranged (d.pairwise_byLevel levels)

/-- Pieces of one length that reach the end of a list make up the list. -/
theorem flatten_pieces (list : List String) {columns count : ℕ}
    (h : list.length ≤ count * columns) :
  ((List.range count).map fun k => (list.drop (k * columns)).take columns).flatten = list
  := by
  induction count generalizing list with
  | zero =>
    rw [Nat.zero_mul, Nat.le_zero, List.length_eq_zero_iff] at h
    rw [h]
    rfl
  | succ count ih =>
    have hrest := ih (list.drop columns) (by
      rw [List.length_drop, Nat.sub_le_iff_le_add, ← Nat.succ_mul]
      exact h)
    rw [List.range_succ_eq_map, List.map_cons, List.flatten_cons, List.map_map, Nat.zero_mul,
      List.drop_zero]
    simp only [List.drop_drop] at hrest
    conv_rhs => rw [← List.take_append_drop columns list, ← hrest]
    congr 2
    apply List.map_congr_left
    intro k _
    rw [Function.comp_apply, Nat.succ_mul, Nat.add_comm]

theorem nonempty_of_mem_grid (h : row ∈ d.grid) :
  row ≠ []
  := by
  obtain ⟨k, hk, rfl⟩ := List.mem_map.mp h
  rw [List.mem_range, Nat.lt_iff_add_one_le, Nat.le_div_iff_mul_le (by rw [Scene.columns]; omega),
    Nat.succ_mul] at hk
  rw [← List.length_pos_iff, List.length_take, List.length_drop, length_keys]
  rw [Scene.columns] at hk ⊢
  omega

/-- The rows of the grid hold every class once. -/
theorem flatten_grid (d : ClassDiagram) :
  d.grid.flatten = d.classes.keys
  := by
  have hpos : 0 < Scene.columns d.classes.size := by
    rw [Scene.columns]
    omega
  apply flatten_pieces
  rw [length_keys]
  have hlt := Nat.lt_div_mul_add (a := d.classes.size + Scene.columns d.classes.size - 1) hpos
  omega

end ClassDiagram

end DiagramLayout
