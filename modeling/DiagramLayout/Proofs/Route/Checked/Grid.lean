import DiagramLayout.Proofs.Route.Bounds
import DiagramLayout.Route.Checked

/-!
# Checked grids

On a modest lattice no place of a cell needs more than 32 bits, and on a grid with one mark for each
cell no mark is read or written outside the array. So building a grid, freeing a cell, counting the
blocked cells around a cell and stepping to a neighbour do not fail.
-/

namespace DiagramLayout.Checked

/-! ### Numbers and arrays -/

/-- A number of 32 bits is narrowed without a fault. -/
theorem narrow_eq {n : ℤ} (h : -0x80000000 ≤ n) (h' : n ≤ 0x7fffffff) :
  narrow n = pure n
  := by
  rw [narrow, if_pos ⟨h, h'⟩]

/-- A number is held to an interval that is not empty without a fault. -/
theorem clamp_eq {n low high : ℤ} (h : low ≤ high) :
  clamp n low high = pure (max low (min n high))
  := by
  rw [clamp, if_pos h]

section Arrays

variable {α : Type} {items : Array α} {i : ℕ}

theorem read_eq (h : i < items.size) :
  read items i = pure items[i]
  := by
  have hi : 0 ≤ (i : ℤ) ∧ (i : ℤ).toNat < items.size := ⟨by omega, by omega⟩
  rw [read, dif_pos hi]
  simp only [Int.toNat_natCast]

theorem write_eq (h : i < items.size) (item : α) :
  write items i item = pure (items.setIfInBounds i item)
  := by
  have hi : 0 ≤ (i : ℤ) ∧ (i : ℤ).toNat < items.size := ⟨by omega, by omega⟩
  rw [write, dif_pos hi]
  simp only [Int.toNat_natCast, Array.setIfInBounds, dif_pos h]

end Arrays

/-- A loop that keeps an invariant and whose steps do not fail does not fail. -/
theorem foldlM_eq {α β : Type} {f : β → α → Checked β} {g : β → α → β} (Inv : β → Prop)
    {as : List α} (h : ∀ b, Inv b → ∀ a ∈ as, f b a = pure (g b a) ∧ Inv (g b a)) {b : β}
    (hb : Inv b) :
  as.foldlM f b = pure (as.foldl g b) ∧ Inv (as.foldl g b)
  := by
  induction as generalizing b with
  | nil => exact ⟨rfl, hb⟩
  | cons a rest ih =>
    obtain ⟨hstep, hkept⟩ := h b hb a List.mem_cons_self
    rw [List.foldlM_cons, hstep, pure_bind, List.foldl_cons]
    apply ih _ hkept
    intro b hb c hc
    apply h b hb c (List.mem_cons_of_mem a hc)

/-- A loop that counts. -/
theorem foldlM_countP {α : Type} {f : ℕ → α → Checked ℕ} {p : α → Bool}
    (h : ∀ a n, f n a = pure (if p a then n + 1 else n)) (as : List α) (n : ℕ) :
  as.foldlM f n = pure (n + as.countP p)
  := by
  induction as generalizing n with
  | nil => rfl
  | cons a rest ih =>
    rw [List.foldlM_cons, h, pure_bind, ih, List.countP_cons]
    congr 1
    split_ifs <;> omega

/-- A loop that adds up. -/
theorem foldlM_sum {α : Type} {f : ℕ → α → Checked ℕ} {k : α → ℕ}
    (h : ∀ n a, f n a = pure (n + k a)) (as : List α) (n : ℕ) :
  as.foldlM f n = pure (n + (as.map k).sum)
  := by
  induction as generalizing n with
  | nil => rfl
  | cons a rest ih =>
    rw [List.foldlM_cons, h, pure_bind, ih, List.map_cons, List.sum_cons, add_assoc]

theorem span_around (n : ℤ) :
  span (n - 1) (n + 1) = [n - 1, n, n + 1]
  := by
  have hcount : (n + 1 + 1 - (n - 1)).toNat = 3 := by omega
  have hrange : List.range 3 = [0, 1, 2] := rfl
  rw [span, hcount, hrange]
  simp only [List.map_cons, List.map_nil, List.cons.injEq, and_true]
  omega

/-- The numbers around a natural number are natural numbers, apart from minus one. -/
theorem countP_span (n : ℕ) {p : ℤ → Bool} (h : p (-1) = false) :
  (span (n - 1) (n + 1)).countP p = (Lattice.beside n).countP fun (k : ℕ) => p k
  := by
  rw [span_around]
  cases n with
  | zero => simp [Lattice.beside, List.countP_cons, h]
  | succ n => simp [Lattice.beside, List.countP_cons]

/-- A sum over the three numbers around one is the sum over those of them that are not negative,
when the others do not count. -/
theorem sum_span (n : ℕ) {f : ℤ → ℕ} (h : f (-1) = 0) :
  ((span (n - 1) (n + 1)).map f).sum = ((Lattice.beside n).map fun (k : ℕ) => f k).sum
  := by
  rw [span_around]
  cases n with
  | zero => simp [Lattice.beside, h]
  | succ n => simp [Lattice.beside]

/-! ### Lattices -/

section Lattices

variable {l : Lattice} {c : Cell}

/-- A column and a row are in bounds when they are neither negative nor too large. -/
theorem inBounds_iff {col row : ℤ} :
  inBounds l col row = true ↔ (0 ≤ col ∧ 0 ≤ row) ∧ col < l.cols ∧ row < l.rows
  := by
  simp only [inBounds, Bool.and_eq_true, decide_eq_true_eq, and_assoc]

/-- A column and a row of the lattice are those of a cell. -/
theorem exists_cell {col row : ℤ} (h : inBounds l col row = true) :
  ∃ d : Cell, (d.col : ℤ) = col ∧ (d.row : ℤ) = row ∧ l.inBounds d = true
  := by
  obtain ⟨⟨hcol, hrow⟩, hcols, hrows⟩ := inBounds_iff.mp h
  refine ⟨⟨col.toNat, row.toNat⟩, Int.toNat_of_nonneg hcol, Int.toNat_of_nonneg hrow,
    Lattice.inBounds_iff.mpr ⟨?_, ?_⟩⟩
  · change col.toNat < l.cols
    omega
  · change row.toNat < l.rows
    omega

theorem nearestOnAxis_eq (x start pitch : Float32) {count : ℕ} (h : 2 ≤ count)
    (h' : count ≤ 2000000) :
  nearestOnAxis x start pitch count = pure (Lattice.nearestOnAxis x start pitch count)
  := by
  rw [nearestOnAxis, narrow_eq (by omega) (by omega), pure_bind, clamp_eq (by omega), pure_bind]
  rfl

/-- The vertices along an axis that may lie in an interval are found without a fault. -/
theorem axisSpan_eq (low high start pitch : Float32) {count : ℕ} (h : 2 ≤ count)
    (h' : count ≤ 2000000) :
  axisSpan low high start pitch count
    = pure ((Lattice.axisRange low high start pitch count).map Nat.cast)
  := by
  rw [axisSpan, narrow_eq (by omega) (by omega), pure_bind, Lattice.axisRange]
  simp only [span, List.range'_eq_map_range, List.map_map]
  congr 1
  apply List.map_congr_left
  intro k _
  simp only [Function.comp_apply, Nat.cast_add]
  omega

theorem lt_of_mem_axisRange {low high start pitch : Float32} {count i : ℕ}
    (h : i ∈ Lattice.axisRange low high start pitch count) :
  i < count
  := by
  rw [Lattice.axisRange, List.mem_range'_1] at h
  omega

variable (hl : l.IsModest)

include hl

theorem index_eq (hc : l.inBounds c = true) :
  index l c.col c.row = pure (l.index c : ℤ)
  := by
  have hsize : l.size ≤ 4000000 := hl.size_le
  have hlt : c.row * l.cols + c.col < l.size := Lattice.index_lt hc
  have hrow : ((c.row : ℤ) * l.cols) = (c.row * l.cols : ℕ) := by push_cast; rfl
  simp only [index, hrow]
  rw [narrow_eq (by omega) (by omega), pure_bind, narrow_eq (by omega) (by omega), Lattice.index,
    Nat.cast_add]

theorem nearestCell_eq (p : Point) :
  nearestCell l p = pure (l.nearestCell p)
  := by
  rw [nearestCell, nearestOnAxis_eq _ _ _ hl.two_le_cols hl.cols_le, pure_bind,
    nearestOnAxis_eq _ _ _ hl.two_le_rows hl.rows_le, pure_bind]
  rfl

/-! ### Marks -/

variable {r : Rect} {marks : Array Bool}

/-- A cell in bounds is marked without a fault. -/
theorem mark_eq {col row : ℕ} (hcol : col < l.cols) (hrow : row < l.rows)
    (hm : marks.size = l.size) :
  mark l r row marks col = pure (if r.contains (l.vertex ⟨col, row⟩) then
    marks.setIfInBounds (l.index ⟨col, row⟩) true else marks)
  := by
  have hcell : l.inBounds ⟨col, row⟩ = true := Lattice.inBounds_iff.mpr ⟨hcol, hrow⟩
  have hindex := Lattice.index_lt hcell
  rw [mark]
  simp only [Int.toNat_natCast]
  split_ifs with hin
  · rw [index_eq hl hcell, pure_bind, write_eq (by omega)]
  · rfl

theorem markRow_eq {cols : List ℕ} {row : ℕ} (hcols : ∀ col ∈ cols, col < l.cols)
    (hrow : row < l.rows) (hm : marks.size = l.size) :
  (cols.map Nat.cast).foldlM (mark l r row) marks = pure (Grid.markRow l r cols marks row)
  := by
  rw [List.foldlM_map, Grid.markRow]
  refine (foldlM_eq (fun m : Array Bool => m.size = l.size) ?_ hm).1
  intro m hm col hcol
  refine ⟨mark_eq hl (hcols col hcol) hrow hm, ?_⟩
  split_ifs
  · rw [Array.size_setIfInBounds, hm]
  · apply hm

/-- The cells in a rectangle are marked without a fault. -/
theorem markRect_eq (hm : marks.size = l.size) :
  markRect l marks r = pure (Grid.markRect l marks r)
  := by
  rw [markRect, axisSpan_eq _ _ _ _ hl.two_le_cols hl.cols_le, pure_bind,
    axisSpan_eq _ _ _ _ hl.two_le_rows hl.rows_le, pure_bind, List.foldlM_map, Grid.markRect]
  refine (foldlM_eq (fun m : Array Bool => m.size = l.size) ?_ hm).1
  intro m hm row hrow
  refine ⟨?_, by rw [Grid.size_markRow, hm]⟩
  apply markRow_eq hl (fun col => lt_of_mem_axisRange) (lt_of_mem_axisRange hrow) hm

end Lattices

/-- Grids are built without fault. -/
theorem build?_eq (origin : Point) (points : List Point) (rects : List Rect)
    (gridSize margin : Float32) :
  build? origin points rects gridSize margin
    = pure (Grid.build? origin points rects gridSize margin)
  := by
  rw [build?, Grid.build?]
  cases hcover : Lattice.cover? origin points rects gridSize margin with
  | none => rfl
  | some l =>
    have hl := Lattice.isModest_of_cover? hcover
    have hmarks : rects.foldlM (markRect l) (Array.replicate l.size false)
        = pure (rects.foldl (Grid.markRect l) (Array.replicate l.size false)) := by
      refine (foldlM_eq (fun m : Array Bool => m.size = l.size) ?_ Array.size_replicate).1
      intro m hm r _
      exact ⟨markRect_eq hl hm, by rw [Grid.size_markRect, hm]⟩
    simp only [hmarks, pure_bind, Option.map_some, Grid.ofRects]

/-! ### Grids -/

section Grids

variable {g : Grid} {c : Cell} (hg : g.IsModest)

include hg

theorem index_lt_size (hc : g.lattice.inBounds c = true) :
  g.lattice.index c < g.blocked.size
  := by
  rw [hg.size_blocked]
  apply Lattice.index_lt hc

theorem isBlocked_eq (hc : g.lattice.inBounds c = true) :
  isBlocked g c.col c.row = pure (g.isBlocked c)
  := by
  have hlt := index_lt_size hg hc
  rw [isBlocked, index_eq hg.lattice hc, pure_bind, read_eq hlt, Grid.isBlocked,
    Array.getD_eq_getD_getElem?, Array.getElem?_eq_getElem hlt, Option.getD_some]

omit hg in
/-- A column behind the last one is not noticed in the first row, but it is in the last one. -/
example :
  isBlocked ⟨⟨1.0, ⟨0.0, 0.0⟩, 3, 2⟩, Array.replicate 6 true⟩ 3 0 = .ok true
    ∧ isBlocked ⟨⟨1.0, ⟨0.0, 0.0⟩, 3, 2⟩, Array.replicate 6 true⟩ 3 1 = .error .outside
  := by
  constructor <;> rfl

theorem free_eq (hc : g.lattice.inBounds c = true) :
  free g c = pure (g.free c)
  := by
  rw [free, index_eq hg.lattice hc, pure_bind, write_eq (index_lt_size hg hc), pure_bind,
    Grid.free]

/-! ### Neighbours -/

/-- The column and the row of a cell in bounds are far from the limits of 32 bits. -/
theorem natCast_lt (hc : g.lattice.inBounds c = true) :
  (c.col : ℤ) < 2000000 ∧ (c.row : ℤ) < 2000000
  := by
  have hcols := hg.lattice.cols_le
  have hrows := hg.lattice.rows_le
  rw [Lattice.inBounds_iff] at hc
  omega

omit hg in
/-- The cell one step away, in signed columns and rows. -/
theorem step?_eq (hc : g.lattice.inBounds c = true) (h : Heading) :
  g.lattice.step? c h =
    if inBounds g.lattice (c.col + (stride h).1) (c.row + (stride h).2) then
      some ⟨(c.col + (stride h).1).toNat, (c.row + (stride h).2).toNat⟩ else none
  := by
  rw [Lattice.inBounds_iff] at hc
  have hiff : ∀ {p q : Prop} [Decidable p] [Decidable q] {d e : Cell}, (p ↔ q) → (q → d = e) →
      (if p then some d else none) = if q then some e else none := by
    intro p q _ _ d e hpq hde
    by_cases hq : q
    · rw [if_pos hq, if_pos (hpq.mpr hq), hde hq]
    · rw [if_neg hq, if_neg (mt hpq.mp hq)]
  cases h <;> apply hiff
    <;> simp only [inBounds_iff, stride, Cell.mk.injEq] <;> omega

/-- A step from a cell in bounds is tried without a fault. -/
theorem open?_eq (hc : g.lattice.inBounds c = true) (h : Heading) :
  open? g c h = pure (g.open? c h)
  := by
  obtain ⟨hcol, hrow⟩ := natCast_lt hg hc
  have hstride : -1 ≤ (stride h).1 ∧ (stride h).1 ≤ 1 ∧ -1 ≤ (stride h).2 ∧ (stride h).2 ≤ 1 := by
    cases h <;> decide
  rw [open?, narrow_eq (by omega) (by omega), pure_bind, narrow_eq (by omega) (by omega), pure_bind,
    Grid.open?, step?_eq hc]
  split_ifs with hin
  · obtain ⟨d, hdcol, hdrow, hd⟩ := exists_cell hin
    rw [← hdcol, ← hdrow, isBlocked_eq hg hd, pure_bind]
    simp only [Int.toNat_natCast, Option.filter_some, Bool.not_eq_true']
    cases g.isBlocked d <;> rfl
  · rfl

/-- Whether a place around a cell counts as a blocked cell. -/
def counts (g : Grid) (c : Cell) (row col : ℤ) : Bool :=
  !decide (col = c.col ∧ row = c.row) && inBounds g.lattice col row
    && g.isBlocked ⟨col.toNat, row.toNat⟩

/-- One cell around another is counted without a fault. -/
theorem countBlocked_eq (row col : ℤ) (count : ℕ) :
  countBlocked g c row count col = pure (if counts g c row col then count + 1 else count)
  := by
  rw [countBlocked, counts]
  by_cases hself : col = c.col ∧ row = c.row
  · rw [if_pos (.inl hself), decide_eq_true hself]
    rfl
  · by_cases hin : inBounds g.lattice col row = true
    · obtain ⟨d, rfl, rfl, hd⟩ := exists_cell hin
      rw [if_neg (by tauto), isBlocked_eq hg hd, pure_bind, decide_eq_false hself, hin]
      rfl
    · rw [if_pos (.inr hin), Bool.eq_false_iff.mpr hin, Bool.and_false]
      rfl

omit hg in
/-- No cell counts in front of the first column or row. -/
theorem counts_of_neg {row col : ℤ} (h : row < 0 ∨ col < 0) :
  counts g c row col = false
  := by
  have hout : inBounds g.lattice col row = false := by
    rw [Bool.eq_false_iff, ne_eq, inBounds_iff]
    omega
  rw [counts, hout, Bool.and_false, Bool.false_and]

omit hg in
/-- The blocked cells around a cell, row by row. -/
theorem crowding_eq_sum :
  g.crowding c = ((Lattice.beside c.row).map fun (row : ℕ) =>
    (Lattice.beside c.col).countP fun (col : ℕ) => counts g c row col).sum
  := by
  rw [Grid.crowding, Lattice.around, List.countP_filter, List.countP_flatMap]
  congr 1
  apply List.map_congr_left
  intro row _
  rw [Function.comp_apply, List.countP_map]
  apply List.countP_congr
  intro col _
  simp only [Function.comp_apply, counts, Bool.and_eq_true, bne_iff_ne, ne_eq, Bool.not_eq_true',
    decide_eq_false_iff_not, inBounds_iff, Lattice.inBounds_iff, Int.toNat_natCast, Nat.cast_inj,
    Nat.cast_lt, Nat.cast_nonneg, true_and]
  have hself : (Cell.mk col row = c) ↔ col = c.col ∧ row = c.row := by
    cases c
    rw [Cell.mk.injEq]
  rw [hself]
  tauto

/-- The blocked cells around a cell in bounds are counted without a fault. -/
theorem crowding_eq (hc : g.lattice.inBounds c = true) :
  crowding g c = pure (g.crowding c)
  := by
  obtain ⟨hcol, hrow⟩ := natCast_lt hg hc
  rw [crowding, narrow_eq (by omega) (by omega), pure_bind, narrow_eq (by omega) (by omega),
    pure_bind, narrow_eq (by omega) (by omega), pure_bind, narrow_eq (by omega) (by omega),
    pure_bind, foldlM_sum (fun count row => foldlM_countP (countBlocked_eq hg row) _ count),
    zero_add, sum_span, crowding_eq_sum]
  · congr 2
    apply List.map_congr_left
    intro row _
    apply countP_span
    apply counts_of_neg (by omega)
  · rw [List.countP_eq_zero]
    intro col _
    rw [counts_of_neg (by omega)]
    decide

end Grids

end DiagramLayout.Checked
