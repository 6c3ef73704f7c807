import DiagramLayout.Proofs.Route.Blocking
import DiagramLayout.Proofs.Single.Agreement
import DiagramLayout.Route.Connector

/-!
# The set of obstacles

A route depends on which rectangles the obstacles have, and neither on their order nor on how often
each of them is listed nor on their owners. The lattice is laid over the least and the greatest
coordinates, and a cell is blocked when one of the rectangles blocks it.
-/

namespace DiagramLayout

open Single

/-- The rectangles are one rectangle as far as numbers can tell. -/
structure Rect.Agree (r r' : Rect) : Prop where
  x : Single.Agree r.x r'.x
  y : Single.Agree r.y r'.y
  width : Single.Agree r.width r'.width
  height : Single.Agree r.height r'.height

instance : DecidableRel Rect.Agree := fun r r' =>
  decidable_of_iff (Single.Agree r.x r'.x ∧ Single.Agree r.y r'.y ∧ Single.Agree r.width r'.width
    ∧ Single.Agree r.height r'.height)
    ⟨fun ⟨hx, hy, hwidth, hheight⟩ => ⟨hx, hy, hwidth, hheight⟩,
      fun h => ⟨h.x, h.y, h.width, h.height⟩⟩

namespace Rect.Agree

variable {r r' : Rect}

/-- Rectangles that agree have right ends that agree. -/
theorem right (h : r.Agree r') :
  Single.Agree r.right r'.right
  := (h.x.add _).trans (h.width.add_left _)

/-- Rectangles that agree have lower ends that agree. -/
theorem bottom (h : r.Agree r') :
  Single.Agree r.bottom r'.bottom
  := (h.y.add _).trans (h.height.add_left _)

/-- Rectangles that agree still do when they are inflated. -/
theorem inflate (h : r.Agree r') (padding : Float32) :
  (r.inflate padding).Agree (r'.inflate padding)
  where
  x := h.x.sub _
  y := h.y.sub _
  width := h.width.add _
  height := h.height.add _

/-- Rectangles that agree contain the same points. -/
theorem contains_eq (h : r.Agree r') (p : Point) :
  r.contains p = r'.contains p
  := by
  simp only [contains, h.x.le_iff, h.y.le_iff, h.right.le_iff_right, h.bottom.le_iff_right]

end Rect.Agree

/-! ### The lattice -/

namespace Extent

/-- The ends of an extent that is grown are the least and the greatest of all ends. -/
theorem foldl_reach {α : Type} (left top right bottom : α → Float32) (e : Extent) (as : List α) :
  as.foldl (fun e a => e.reach (left a) (top a) (right a) (bottom a)) e
    = ⟨(as.map left).foldl lesser e.minX, (as.map top).foldl lesser e.minY,
        (as.map right).foldl greater e.maxX, (as.map bottom).foldl greater e.maxY⟩
  := by
  induction as generalizing e with
  | nil => rfl
  | cons a rest ih =>
    rw [List.foldl_cons, ih]
    rfl

/-- The ends agree with each other. -/
structure Agree (e e' : Extent) : Prop where
  minX : Single.Agree e.minX e'.minX
  minY : Single.Agree e.minY e'.minY
  maxX : Single.Agree e.maxX e'.maxX
  maxY : Single.Agree e.maxY e'.maxY

theorem Agree.isFinite_eq {e e' : Extent} (h : e.Agree e') :
  e.isFinite = e'.isFinite
  := by
  rw [isFinite, isFinite, h.minX.isFinite_eq, h.minY.isFinite_eq, h.maxX.isFinite_eq,
    h.maxY.isFinite_eq]

/-- The ends of an extent are running minima and maxima over the points and then the rectangles. -/
theorem of_eq (points : List Point) (rects : List Rect) :
  of points rects
    = ⟨(rects.map Rect.x).foldl lesser ((points.map Point.x).foldl lesser largest),
        (rects.map Rect.y).foldl lesser ((points.map Point.y).foldl lesser largest),
        (rects.map Rect.right).foldl greater ((points.map Point.x).foldl greater (-largest)),
        (rects.map Rect.bottom).foldl greater ((points.map Point.y).foldl greater (-largest))⟩
  := by
  rw [of, foldl_reach, foldl_reach]
  rfl

/-- Extents agree when each rectangle of one list agrees with one of the other. -/
theorem agree_of {rects rects' : List Rect} (h : Partnered Rect.Agree rects rects')
    (points : List Point) :
  (of points rects).Agree (of points rects')
  := by
  have hlargest : IsNumber largest := isWhole_largest.isNumber
  rw [of_eq, of_eq]
  constructor
  case minX => apply agree_foldl_lesser (h.map _ fun _ _ h => h.x) (isNumber_foldl_lesser hlargest _)
  case minY => apply agree_foldl_lesser (h.map _ fun _ _ h => h.y) (isNumber_foldl_lesser hlargest _)
  case maxX => apply agree_foldl_greater (h.map _ fun _ _ h => h.right)
  case maxY => apply agree_foldl_greater (h.map _ fun _ _ h => h.bottom)

end Extent

namespace Lattice

variable {origin low low' high high' start pitch : Float32}

/-- The number of vertices depends on the ends only as far as numbers tell. -/
theorem axisCount_congr (h : Agree high high') :
  axisCount start high pitch = axisCount start high' pitch
  := by
  have hone : ¬IsZero 1.0 := by
    rintro ⟨s, hs⟩
    cases hs
  have hcount := (((h.sub start).div pitch).roundBy ceilDiv).add_eq hone
  rw [axisCount, axisCount, ceil, ceil, hcount]

/-- The vertices between two ends depend on the ends only as far as numbers tell. -/
theorem axisRange_congr (hlow : Agree low low') (hhigh : Agree high high') (count : ℕ) :
  axisRange low high start pitch count = axisRange low' high' start pitch count
  := by
  have hfirst := (((hlow.sub start).div pitch).roundBy floorDiv).toInt32_eq
  have hlast := (((hhigh.sub start).div pitch).roundBy ceilDiv).toInt32_eq
  rw [axisRange, axisRange, floor, floor, ceil, ceil, hfirst, hlast]

/-- An axis that is laid through one of some points, over these and over numbers that agree, begins
at one place: the sign of a least number that is zero is that of a point, or is lost when the number
is taken from an origin that is not zero. -/
theorem axisStart_congr {points xs ys : List Float32} (h : Partnered Agree xs ys)
    (horigin : origin ∈ points) (margin : Float32) :
  axisStart origin (xs.foldl lesser (points.foldl lesser largest) - margin) pitch
    = axisStart origin (ys.foldl lesser (points.foldl lesser largest) - margin) pitch
  := by
  have hleast : IsNumber (points.foldl lesser largest) :=
    isNumber_foldl_lesser isWhole_largest.isNumber points
  have hdistance : origin - (xs.foldl lesser (points.foldl lesser largest) - margin)
      = origin - (ys.foldl lesser (points.foldl lesser largest) - margin) := by
    by_cases hzero : IsZero origin
    · obtain ⟨hnumber, hvalue⟩ := value_of_isZero hzero
      have hnonpos : points.foldl lesser largest ≤ 0.0 := by
        apply Single.le_trans (foldl_lesser_le hnumber (List.mem_cons_of_mem _ horigin))
        apply le_of_value hnumber isNumber_zero
        rw [hvalue, value_zero]
      rw [foldl_lesser_eq_of_nonpos h hnonpos]
    · apply ((agree_foldl_lesser h hleast).sub margin).sub_left_eq hzero
  rw [axisStart, axisStart, hdistance]

/-- Lists of rectangles that agree are covered by one lattice. -/
theorem cover?_congr {origin : Point} {points : List Point} {rects rects' : List Rect}
    (h : Partnered Rect.Agree rects rects') (horigin : origin ∈ points) (gridSize margin : Float32) :
  cover? origin points rects gridSize margin = cover? origin points rects' gridSize margin
  := by
  have hagree := Extent.agree_of h points
  have hstartX : ∀ pitch, axisStart origin.x ((Extent.of points rects).minX - margin) pitch
      = axisStart origin.x ((Extent.of points rects').minX - margin) pitch := by
    intro pitch
    rw [Extent.of_eq, Extent.of_eq]
    apply axisStart_congr (h.map _ fun _ _ h => h.x) (List.mem_map_of_mem horigin)
  have hstartY : ∀ pitch, axisStart origin.y ((Extent.of points rects).minY - margin) pitch
      = axisStart origin.y ((Extent.of points rects').minY - margin) pitch := by
    intro pitch
    rw [Extent.of_eq, Extent.of_eq]
    apply axisStart_congr (h.map _ fun _ _ h => h.y) (List.mem_map_of_mem horigin)
  have hcols : ∀ start pitch, axisCount start ((Extent.of points rects).maxX + margin) pitch
      = axisCount start ((Extent.of points rects').maxX + margin) pitch :=
    fun _ _ => axisCount_congr (hagree.maxX.add margin)
  have hrows : ∀ start pitch, axisCount start ((Extent.of points rects).maxY + margin) pitch
      = axisCount start ((Extent.of points rects').maxY + margin) pitch :=
    fun _ _ => axisCount_congr (hagree.maxY.add margin)
  simp only [cover?, hagree.isFinite_eq, hstartX, hstartY, hcols, hrows]

end Lattice

/-! ### The blocked cells -/

/-- The rectangle blocks the cell at a place in the array of marks. -/
def Rect.Blocks (r : Rect) (l : Lattice) (i : ℕ) : Prop :=
  ∃ row ∈ Lattice.axisRange r.y r.bottom l.corner.y l.pitch l.rows,
    ∃ col ∈ Lattice.axisRange r.x r.right l.corner.x l.pitch l.cols,
      r.contains (l.vertex ⟨col, row⟩) = true ∧ l.index ⟨col, row⟩ = i

/-- Rectangles that agree block the same cells. -/
theorem Rect.Agree.blocks_iff {r r' : Rect} (h : r.Agree r') (l : Lattice) (i : ℕ) :
  r.Blocks l i ↔ r'.Blocks l i
  := by
  simp only [Blocks, Lattice.axisRange_congr h.x h.right, Lattice.axisRange_congr h.y h.bottom,
    h.contains_eq]

namespace Grid

variable {l : Lattice} {r : Rect} {cols : List ℕ} {marks : Array Bool} {i n row : ℕ}

/-- What is marked in the end was marked before or is marked by one of the steps. -/
theorem getD_foldl_iff {α : Type} {f : Array Bool → α → Array Bool} {Q : α → Prop}
    (h : ∀ m a, m.size = n →
      (f m a).size = n ∧ ((f m a).getD i false = true ↔ m.getD i false = true ∨ Q a))
    (as : List α) (hmarks : marks.size = n) :
  (as.foldl f marks).size = n
    ∧ ((as.foldl f marks).getD i false = true ↔ marks.getD i false = true ∨ ∃ a ∈ as, Q a)
  := by
  induction as generalizing marks with
  | nil => simp [hmarks]
  | cons a rest ih =>
    obtain ⟨hsize, hstep⟩ := h marks a hmarks
    rw [List.foldl_cons, (ih hsize).2, hstep, List.exists_mem_cons_iff, or_assoc]
    exact ⟨(ih hsize).1, Iff.rfl⟩

/-- After a row is marked, a cell has a mark when it had one or lies in the row and in the
rectangle. -/
theorem getD_markRow_iff (hi : i < n) (hmarks : marks.size = n) :
  (markRow l r cols marks row).size = n
    ∧ ((markRow l r cols marks row).getD i false = true ↔ marks.getD i false = true
      ∨ ∃ col ∈ cols, r.contains (l.vertex ⟨col, row⟩) = true ∧ l.index ⟨col, row⟩ = i)
  := by
  apply getD_foldl_iff _ cols hmarks
  intro m col hm
  split_ifs with hin
  · rw [Array.size_setIfInBounds, getD_setIfInBounds]
    use hm
    split_ifs with hindex
    · simp [hin, hindex.1]
    · have hne : ¬l.index ⟨col, row⟩ = i := by
        intro heq
        apply hindex
        omega
      simp [hne]
  · simp [hm, hin]

/-- After a rectangle is marked, a cell has a mark when it had one or is blocked by the
rectangle. -/
theorem getD_markRect_iff (hi : i < n) (hmarks : marks.size = n) :
  (markRect l marks r).size = n
    ∧ ((markRect l marks r).getD i false = true ↔ marks.getD i false = true ∨ r.Blocks l i)
  := by
  apply getD_foldl_iff _ _ hmarks
  intro m row hm
  apply getD_markRow_iff hi hm

/-- The cells that are marked are those that one of the rectangles blocks. -/
theorem getD_ofRects_iff (hi : i < l.size) (rects : List Rect) :
  (ofRects l rects).blocked.getD i false = true ↔ ∃ r ∈ rects, r.Blocks l i
  := by
  have hblank : (Array.replicate l.size false).getD i false = false := by
    rw [Array.getD_eq_getD_getElem?, Array.getElem?_replicate, if_pos hi]
    rfl
  have hmarks := getD_foldl_iff (Q := (Rect.Blocks · l i))
    (fun m r hm => getD_markRect_iff (r := r) hi hm) rects (Array.size_replicate (v := false))
  rw [ofRects, hmarks.2, hblank]
  simp

theorem size_blocked_ofRects (l : Lattice) (rects : List Rect) :
  (ofRects l rects).blocked.size = l.size
  := by
  apply List.foldlRecOn (motive := fun m : Array Bool => m.size = l.size) rects
  · apply Array.size_replicate
  · intro m hm r _
    rw [size_markRect, hm]

/-- Lists of rectangles that agree block the same cells. -/
theorem ofRects_congr {rects rects' : List Rect} (h : Partnered Rect.Agree rects rects')
    (l : Lattice) :
  ofRects l rects = ofRects l rects'
  := by
  have hhalf : ∀ {rects rects' : List Rect} {i : ℕ}, Partnered Rect.Agree rects rects' →
      (∃ r ∈ rects, r.Blocks l i) → ∃ r ∈ rects', r.Blocks l i := by
    rintro rects rects' i h ⟨r, hr, hblocks⟩
    obtain ⟨r', hr', hagree⟩ := h.left r hr
    exact ⟨r', hr', (hagree.blocks_iff l i).mp hblocks⟩
  have hblocked : (ofRects l rects).blocked = (ofRects l rects').blocked := by
    apply Array.ext
    · rw [size_blocked_ofRects, size_blocked_ofRects]
    · intro i hi hi'
      have hlt : i < l.size := size_blocked_ofRects l rects ▸ hi
      have hiff : (ofRects l rects).blocked.getD i false = true
          ↔ (ofRects l rects').blocked.getD i false = true := by
        rw [getD_ofRects_iff hlt, getD_ofRects_iff hlt]
        exact ⟨hhalf h, hhalf h.symm⟩
      rw [← Bool.eq_iff_iff, Array.getD, Array.getD, dif_pos hi, dif_pos hi'] at hiff
      exact hiff
  exact congrArg (Grid.mk l) hblocked

/-- Lists of rectangles that agree lead to one grid. -/
theorem build?_congr {origin : Point} {points : List Point} {rects rects' : List Rect}
    (h : Partnered Rect.Agree rects rects') (horigin : origin ∈ points) (gridSize margin : Float32) :
  build? origin points rects gridSize margin = build? origin points rects' gridSize margin
  := by
  rw [build?, build?, Lattice.cover?_congr h horigin]
  simp only [ofRects_congr h]

end Grid

/-! ### The route -/

/-- The lists have the same rectangles, in any order, any number of times and with any owners. -/
def Obstacle.HaveSameRects : List Obstacle → List Obstacle → Prop :=
  Partnered fun o o' => o.rect.Agree o'.rect

instance : DecidableRel Obstacle.HaveSameRects := fun obstacles obstacles' =>
  inferInstanceAs (Decidable (Partnered (fun o o' : Obstacle => o.rect.Agree o'.rect) obstacles
    obstacles'))

namespace Connector

/-- A connector has one grid for all lists of obstacles with the same rectangles. -/
theorem grid?_of_haveSameRects {obstacles obstacles' : List Obstacle}
    (h : Obstacle.HaveSameRects obstacles obstacles') (start finish : Anchor)
    (spacing : RouteSpacing) (tuning : RouteTuning) :
  (Connector.mk start finish obstacles spacing tuning).grid?
    = (Connector.mk start finish obstacles' spacing tuning).grid?
  := by
  apply Grid.build?_congr
  · apply Partnered.map h
    intro o o' hagree
    apply hagree.inflate
  · rw [List.mem_cons, List.mem_cons, List.mem_cons]
    exact Or.inr (Or.inr (Or.inl rfl))

/-- A route depends on the set of the rectangles of its obstacles only. -/
theorem route?_of_haveSameRects {obstacles obstacles' : List Obstacle}
    (h : Obstacle.HaveSameRects obstacles obstacles') (start finish : Anchor)
    (spacing : RouteSpacing) (tuning : RouteTuning) :
  (Connector.mk start finish obstacles spacing tuning).route?
    = (Connector.mk start finish obstacles' spacing tuning).route?
  := by
  rw [route?, route?, gridStops?, gridStops?, grid?_of_haveSameRects h]
  rfl

/-- Two boxes, one of them at zero and one of them nowhere. -/
def twoBoxes : List Obstacle :=
  [⟨"a", ⟨0.0, 20.0, 40.0, 30.0⟩⟩, ⟨"b", ⟨undefined, 10.0, 20.0, 20.0⟩⟩]

/-- The same boxes the other way around, the first one twice and at negative zero. -/
def twoBoxesShuffled : List Obstacle :=
  [⟨"c", ⟨undefined, 10.0, 20.0, 20.0⟩⟩, ⟨"d", ⟨-0.0, 20.0, 40.0, 30.0⟩⟩,
    ⟨"a", ⟨0.0, 20.0, 40.0, 30.0⟩⟩]

/-- Two lists of the two boxes lead to one route. -/
theorem route?_twoBoxes :
  Obstacle.HaveSameRects twoBoxes twoBoxesShuffled
    ∧ (Connector.mk ⟨⟨20.0, 0.0⟩, some .bottom⟩ ⟨⟨20.0, 70.0⟩, some .top⟩ twoBoxes {} {}).route?
      = (Connector.mk ⟨⟨20.0, 0.0⟩, some .bottom⟩ ⟨⟨20.0, 70.0⟩, some .top⟩ twoBoxesShuffled {}
        {}).route?
  := by
  have hsame : Obstacle.HaveSameRects twoBoxes twoBoxesShuffled := by decide
  exact ⟨hsame, route?_of_haveSameRects hsame _ _ _ _⟩

end Connector

end DiagramLayout
