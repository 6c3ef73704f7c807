import DiagramLayout.Proofs.Route.Covering

/-!
# Blocked cells

Every cell whose vertex lies in one of the rectangles is blocked: the ranges of columns and rows that
are gone through miss no such vertex, and a mark that is set stays.
-/

namespace DiagramLayout

open Single

/-- What one step of a fold brings about, and the other steps keep, holds in the end. -/
theorem foldl_of_mem {α β : Type} {f : β → α → β} (Inv Goal : β → Prop) {a : α} {as : List α}
    {b : β} (ha : a ∈ as) (hinv : ∀ b a, Inv b → Inv (f b a)) (hgoal : ∀ b, Inv b → Goal (f b a))
    (hkeep : ∀ b a, Goal b → Goal (f b a)) (hb : Inv b) :
  Goal (as.foldl f b)
  := by
  obtain ⟨before, after, rfl⟩ := List.append_of_mem ha
  have hmid : Inv (before.foldl f b) := by
    apply List.foldlRecOn before _ hb
    intro b hb a _
    apply hinv b a hb
  rw [List.foldl_append, List.foldl_cons]
  apply List.foldlRecOn after _ (hgoal _ hmid)
  intro b hb a _
  apply hkeep b a hb

namespace Grid

variable {l : Lattice} {r : Rect} {cols : List ℕ} {marks : Array Bool} {i row : ℕ} {cell : Cell}

/-! ### Marks stay -/

theorem size_markRow :
  (markRow l r cols marks row).size = marks.size
  := by
  rw [markRow]
  apply List.foldlRecOn (motive := fun m : Array Bool => m.size = marks.size) cols _ rfl
  intro m hm col _
  split_ifs
  · rw [Array.size_setIfInBounds, hm]
  · apply hm

theorem size_markRect :
  (markRect l marks r).size = marks.size
  := by
  rw [markRect]
  apply List.foldlRecOn (motive := fun m : Array Bool => m.size = marks.size) _ _ rfl
  intro m hm row _
  rw [size_markRow, hm]

/-- Setting a mark changes that mark and no other. -/
theorem getD_setIfInBounds (marks : Array Bool) (i j : ℕ) (v : Bool) :
  (marks.setIfInBounds i v).getD j false
    = if i = j ∧ i < marks.size then v else marks.getD j false
  := by
  rw [Array.getD_eq_getD_getElem?, Array.getD_eq_getD_getElem?, Array.getElem?_setIfInBounds]
  by_cases hij : i = j
  · subst hij
    by_cases hi : i < marks.size
    · rw [if_pos rfl, if_pos hi, if_pos ⟨rfl, hi⟩]
      rfl
    · rw [if_pos rfl, if_neg hi, if_neg (by tauto), Array.getElem?_eq_none (by omega)]
  · rw [if_neg hij, if_neg (by tauto)]

/-- A mark stays when another one is set. -/
theorem getD_set_true (h : marks.getD i false = true) (j : ℕ) :
  (marks.setIfInBounds j true).getD i false = true
  := by
  rw [getD_setIfInBounds, h]
  split_ifs
  · rfl
  · rfl

/-- A mark stays when a row is marked. -/
theorem getD_markRow (h : marks.getD i false = true) :
  (markRow l r cols marks row).getD i false = true
  := by
  rw [markRow]
  apply List.foldlRecOn (motive := fun m : Array Bool => m.getD i false = true) cols _ h
  intro m hm col _
  split_ifs
  · apply getD_set_true hm
  · apply hm

/-- A mark stays when a rectangle is marked. -/
theorem getD_markRect (h : marks.getD i false = true) :
  (markRect l marks r).getD i false = true
  := by
  rw [markRect]
  apply List.foldlRecOn (motive := fun m : Array Bool => m.getD i false = true) _ _ h
  intro m hm row _
  apply getD_markRow hm

/-! ### Vertices in a rectangle are marked -/

/-- A cell of the row is marked when the rectangle contains its vertex. -/
theorem getD_markRow_of_contains (hcell : l.inBounds cell = true)
    (hin : r.contains (l.vertex cell) = true) (hcol : cell.col ∈ cols)
    (hsize : marks.size = l.size) :
  (markRow l r cols marks cell.row).getD (l.index cell) false = true
  := by
  rw [markRow]
  apply foldl_of_mem (fun m : Array Bool => m.size = l.size)
    (fun m : Array Bool => m.getD (l.index cell) false = true) hcol _ _ _ hsize
  · intro m col hm
    split_ifs
    · rw [Array.size_setIfInBounds, hm]
    · apply hm
  · intro m hm
    rw [if_pos hin, getD_setIfInBounds, if_pos]
    rw [hm]
    exact ⟨rfl, Lattice.index_lt hcell⟩
  · intro m col hm
    split_ifs
    · apply getD_set_true hm
    · apply hm

/-- A cell is marked when the rectangle contains its vertex and the vertex is looked at. -/
theorem getD_markRect_of_contains (hcell : l.inBounds cell = true)
    (hin : r.contains (l.vertex cell) = true)
    (hcol : cell.col ∈ Lattice.axisRange r.x r.right l.corner.x l.pitch l.cols)
    (hrow : cell.row ∈ Lattice.axisRange r.y r.bottom l.corner.y l.pitch l.rows)
    (hsize : marks.size = l.size) :
  (markRect l marks r).getD (l.index cell) false = true
  := by
  rw [markRect]
  apply foldl_of_mem (fun m : Array Bool => m.size = l.size)
    (fun m : Array Bool => m.getD (l.index cell) false = true) hrow _ _ _ hsize
  · intro m row hm
    rw [size_markRow, hm]
  · intro m hm
    apply getD_markRow_of_contains hcell hin hcol hm
  · intro m row hm
    apply getD_markRow hm

/-- A cell of an exact lattice is blocked when its vertex lies in one of the rectangles. -/
theorem isBlocked_ofRects {s t c : ℤ} (hl : l.IsExact s t c) {rects : List Rect} (hr : r ∈ rects)
    (hconfined : r.IsConfined) (hcell : l.inBounds cell = true)
    (hin : r.contains (l.vertex cell) = true) :
  (ofRects l rects).isBlocked cell = true
  := by
  obtain ⟨a, b, a', b', hspans, hcols, hrows⟩ := hconfined
  obtain ⟨hcol, hrow⟩ := Lattice.inBounds_iff.mp hcell
  obtain ⟨hx, hy⟩ := (hspans.contains_iff (hl.vertex hcell)).mp hin
  have hab : |a| ≤ 3000000 ∧ |b| ≤ 3000000 := by
    rw [abs_le, abs_le]
    omega
  have hab' : |a'| ≤ 3000000 ∧ |b'| ≤ 3000000 := by
    rw [abs_le, abs_le]
    omega
  rw [isBlocked, ofRects]
  apply foldl_of_mem (fun m : Array Bool => m.size = l.size)
    (fun m : Array Bool => m.getD (l.index cell) false = true) hr
  · intro m r hm
    rw [size_markRect, hm]
  · intro m hm
    apply getD_markRect_of_contains hcell hin _ _ hm
    · apply hl.cols.mem_axisRange hspans.left hspans.right hab.1 hab.2 hcol hx.1 hx.2
    · apply hl.rows.mem_axisRange hspans.top hspans.bottom hab'.1 hab'.2 hrow hy.1 hy.2
  · intro m r hm
    apply getD_markRect hm
  · apply Array.size_replicate

/-! ### Vertices outside of all rectangles are free -/

theorem lt_of_mem_axisRange {low high start pitch : Float32} {count : ℕ}
    (h : i ∈ Lattice.axisRange low high start pitch count) :
  i < count
  := by
  have hmem := List.mem_range'_1.mp h
  omega

/-- Marking a row marks no cell whose vertex is outside the rectangle. -/
theorem getD_markRow_eq_false (hcell : l.inBounds cell = true)
    (hout : r.contains (l.vertex cell) = false) (hcols : ∀ col ∈ cols, col < l.cols)
    (hrow : row < l.rows) (h : marks.getD (l.index cell) false = false) :
  (markRow l r cols marks row).getD (l.index cell) false = false
  := by
  rw [markRow]
  apply List.foldlRecOn (motive := fun m : Array Bool => m.getD (l.index cell) false = false) cols _ h
  intro m hm col hcol
  split_ifs with hin
  · rw [getD_setIfInBounds, if_neg]
    · exact hm
    · rintro ⟨hindex, -⟩
      have hmarked : l.inBounds ⟨col, row⟩ = true := Lattice.inBounds_iff.mpr ⟨hcols col hcol, hrow⟩
      rw [(Lattice.index_inj hmarked hcell).mp hindex, hout] at hin
      contradiction
  · exact hm

/-- Marking a rectangle marks no cell whose vertex is outside it. -/
theorem getD_markRect_eq_false (hcell : l.inBounds cell = true)
    (hout : r.contains (l.vertex cell) = false) (h : marks.getD (l.index cell) false = false) :
  (markRect l marks r).getD (l.index cell) false = false
  := by
  rw [markRect]
  apply List.foldlRecOn (motive := fun m : Array Bool => m.getD (l.index cell) false = false) _ _ h
  intro m hm row hrow
  exact getD_markRow_eq_false hcell hout (fun _ => lt_of_mem_axisRange) (lt_of_mem_axisRange hrow) hm

/-- A cell whose vertex lies in none of the rectangles is not blocked, whatever the lattice is. -/
theorem isBlocked_ofRects_eq_false {rects : List Rect} (hcell : l.inBounds cell = true)
    (hout : ∀ r ∈ rects, r.contains (l.vertex cell) = false) :
  (ofRects l rects).isBlocked cell = false
  := by
  rw [isBlocked, ofRects]
  apply List.foldlRecOn (motive := fun m : Array Bool => m.getD (l.index cell) false = false) rects
  · rw [Array.getD_eq_getD_getElem?, Array.getElem?_replicate]
    split_ifs <;> rfl
  · intro m hm r hr
    exact getD_markRect_eq_false hcell (hout r hr) hm

/-- Freeing a cell leaves the other cells alone. -/
theorem isBlocked_free {g : Grid} {c d : Cell} (hc : g.lattice.inBounds c = true)
    (hd : g.lattice.inBounds d = true) (hne : d ≠ c) :
  (g.free c).isBlocked d = g.isBlocked d
  := by
  rw [isBlocked, free, getD_setIfInBounds, if_neg]
  · rfl
  · rintro ⟨hindex, -⟩
    apply hne ((Lattice.index_inj hc hd).mp hindex).symm

/-- Freeing a cell blocks none. -/
theorem isBlocked_free_eq_false {g : Grid} {c d : Cell} (h : g.isBlocked d = false) :
  (g.free c).isBlocked d = false
  := by
  rw [isBlocked, free, getD_setIfInBounds]
  split_ifs
  · rfl
  · apply h

theorem isBlocked_free_self {g : Grid} {c : Cell} :
  (g.free c).isBlocked c = false
  := by
  rw [isBlocked, free, getD_setIfInBounds]
  split_ifs with h
  · rfl
  · rw [Array.getD_eq_getD_getElem?, Array.getElem?_eq_none]
    · rfl
    · by_contra! hlt
      apply h ⟨rfl, hlt⟩

end Grid

end DiagramLayout
