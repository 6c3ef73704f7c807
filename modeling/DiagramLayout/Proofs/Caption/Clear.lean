import DiagramLayout.Proofs.Caption.Choice
import DiagramLayout.Proofs.Single.Distance

/-!
# Captions that are in nobody's way

With the standard rules a caption that is in the way of nothing costs no more than its distance from the
middle of the path counts, and for up to 3000 units this is less than any penalty. So a label for which there
is such a place does not overlap anything.
-/

namespace DiagramLayout.CaptionPlacer

open Single

/-- The box, grown by the clearances, intersects no node, no caption placed so far and no segment drawn so
far. -/
structure IsClear (placer : CaptionPlacer) (rules : CaptionRules) (nodes : List Rect) (box : Rect) :
    Prop where
  nodes : ∀ b ∈ nodes, (box.inflate rules.nodeClearance).intersects b = false
  placed : ∀ b ∈ placer.placed, (box.inflate rules.labelClearance).intersects b = false
  drawn : ∀ b ∈ placer.drawn, (box.inflate rules.pathClearance).intersects b = false

instance (placer : CaptionPlacer) (rules : CaptionRules) (nodes : List Rect) (box : Rect) :
    Decidable (placer.IsClear rules nodes box) :=
  decidable_of_iff
    ((∀ b ∈ nodes, (box.inflate rules.nodeClearance).intersects b = false)
      ∧ (∀ b ∈ placer.placed, (box.inflate rules.labelClearance).intersects b = false)
      ∧ (∀ b ∈ placer.drawn, (box.inflate rules.pathClearance).intersects b = false))
    ⟨fun ⟨h₁, h₂, h₃⟩ => ⟨h₁, h₂, h₃⟩, fun ⟨h₁, h₂, h₃⟩ => ⟨h₁, h₂, h₃⟩⟩

/-! ### Penalties -/

section Penalty

variable {probe : Rect} {boxes : List Rect} {penalty : Float32} {n : ℤ}

/-- What overlaps with boxes cost is not negative, when an overlap costs at least one. -/
theorem nonneg_overlapCost (hpenalty : IsWhole penalty n) (hn : 1 ≤ n) :
  0.0 ≤ overlapCost probe boxes penalty
  := by
  apply nonneg_mul_of_pos (nonneg_ofNat _) hpenalty.isRational
  rw [hpenalty.value_eq]
  exact_mod_cast hn

/-- Overlapping a box costs at least the penalty. -/
theorem penalty_le_overlapCost (hpenalty : IsWhole penalty n) (hn : 1 ≤ n) {b : Rect} (hb : b ∈ boxes)
    (h : probe.intersects b = true) :
  penalty ≤ overlapCost probe boxes penalty
  := by
  have hcount : 1 ≤ boxes.countP probe.intersects := List.countP_pos_iff.mpr ⟨b, hb, h⟩
  have hone : Float32.ofNat 1 ≤ Float32.ofNat (boxes.countP probe.intersects) :=
    (isNearest_ofNat 1).le (isNearest_ofNat _) (by exact_mod_cast hcount)
  obtain ⟨-, hnumber, hfactor⟩ := le_iff.mp hone
  rw [(value_ofNat (n := 1) (by norm_num)).2, Nat.cast_one] at hfactor
  have hpenalty' : 1 ≤ value penalty := by
    rw [hpenalty.value_eq]
    exact_mod_cast hn
  exact le_mul_of_one_le hnumber hfactor hpenalty.isNumber hpenalty'

theorem isWhole_bound :
  IsWhole 240.0 240
  := isWhole_ofNat (n := 240) (by norm_num)

/-- At a cost of at most 240 no box is overlapped for which the penalty is more. -/
theorem intersects_eq_false (hpenalty : IsWhole penalty n) (hn : 240 < n)
    (h : overlapCost probe boxes penalty ≤ 240.0) :
  ∀ b ∈ boxes, probe.intersects b = false
  := by
  intro b hb
  rw [Bool.eq_false_iff]
  intro hoverlap
  have hle := penalty_le_overlapCost hpenalty (by omega) hb hoverlap
  have hbound := (hpenalty.le_iff isWhole_bound).mp (Single.le_trans hle h)
  omega

/-- A box that meets none of the others costs nothing. -/
theorem isWhole_overlapCost (hpenalty : IsWhole penalty n)
    (h : ∀ b ∈ boxes, probe.intersects b = false) :
  IsWhole (overlapCost probe boxes penalty) 0
  := by
  have hcount : boxes.countP probe.intersects = 0 := by
    rw [List.countP_eq_zero]
    intro b hb
    rw [h b hb]
    exact Bool.false_ne_true
  have hproduct := (isWhole_ofNat (n := 0) (Nat.zero_le _)).mul hpenalty (by simp)
  rw [Nat.cast_zero, zero_mul] at hproduct
  rw [overlapCost, hcount]
  exact hproduct

end Penalty

/-! ### The standard rules -/

theorem isWhole_nodeOverlapPenalty :
  IsWhole ({} : CaptionRules).nodeOverlapPenalty 900
  := isWhole_ofNat (n := 900) (by norm_num)

theorem isWhole_labelOverlapPenalty :
  IsWhole ({} : CaptionRules).labelOverlapPenalty 700
  := isWhole_ofNat (n := 700) (by norm_num)

theorem isWhole_pathOverlapPenalty :
  IsWhole ({} : CaptionRules).pathOverlapPenalty 280
  := isWhole_ofNat (n := 280) (by norm_num)

/-- The weight of a distance is finite. -/
theorem isRational_distanceWeight :
  IsRational ({} : CaptionRules).distanceWeight
  := by
  decide +kernel

/-- The weight of the distance is a little less than 0.08. -/
theorem value_distanceWeight :
  0 < value ({} : CaptionRules).distanceWeight ∧ value ({} : CaptionRules).distanceWeight ≤ 8 / 100
  := by
  decide +kernel

/-! ### Distances -/

section Distance

variable {distance : Float32}

/-- What a distance costs is not negative. -/
theorem nonneg_distanceCost (h : 0.0 ≤ distance) :
  0.0 ≤ distance * ({} : CaptionRules).distanceWeight
  := nonneg_mul_of_pos h isRational_distanceWeight value_distanceWeight.1

/-- Up to 3000 units cost at most 3000 · 0.08, which is 240, and rounding does not lead beyond it. -/
theorem value_distanceCost_le (h : 0.0 ≤ distance) (hnear : distance ≤ 3000.0) :
  value (distance * ({} : CaptionRules).distanceWeight) ≤ (240 : ℕ)
  := by
  have hreach : IsWhole 3000.0 3000 := isWhole_ofNat (n := 3000) (by norm_num)
  obtain ⟨hnumber, -, hvalue⟩ := le_iff.mp hnear
  obtain ⟨-, hnonneg⟩ := zero_le_iff.mp h
  rw [hreach.value_eq] at hvalue
  push_cast at hvalue
  have hrational : IsRational distance := by
    apply hnumber.isRational
    rw [abs_of_nonneg hnonneg]
    exact hvalue.trans_lt (by norm_num)
  apply (isNearest_mul hrational isRational_distanceWeight).value_le _ (by norm_num)
  calc value distance * value ({} : CaptionRules).distanceWeight ≤ 3000 * (8 / 100) :=
      mul_le_mul hvalue value_distanceWeight.2 value_distanceWeight.1.le (by norm_num)
    _ = (240 : ℕ) := by norm_num

end Distance

/-! ### Scores -/

section Score

variable {placer : CaptionPlacer} {nodes : List Rect} {middle : Point} {caption : Caption}

/-- A score is not negative, and one of at most 240 is that of a caption which overlaps nothing. -/
theorem isClear_of_score_le (hdistance : 0.0 ≤ caption.center.manhattan middle) :
  0.0 ≤ placer.score {} nodes middle caption
    ∧ (placer.score {} nodes middle caption ≤ 240.0 → placer.IsClear {} nodes caption.box)
  := by
  obtain ⟨hnonneg, hnodes, hlabels, hpaths⟩ := parts_le_cost
    (nonneg_overlapCost isWhole_nodeOverlapPenalty (by norm_num))
    (nonneg_overlapCost isWhole_labelOverlapPenalty (by norm_num))
    (nonneg_overlapCost isWhole_pathOverlapPenalty (by norm_num)) (nonneg_distanceCost hdistance)
  refine ⟨hnonneg, fun hscore => ?_⟩
  constructor
  · exact intersects_eq_false isWhole_nodeOverlapPenalty (by norm_num) (Single.le_trans hnodes hscore)
  · exact intersects_eq_false isWhole_labelOverlapPenalty (by norm_num) (Single.le_trans hlabels hscore)
  · exact intersects_eq_false isWhole_pathOverlapPenalty (by norm_num) (Single.le_trans hpaths hscore)

/-- A caption that overlaps nothing costs at most 240 within 3000 units. -/
theorem score_le_of_isClear (h : placer.IsClear {} nodes caption.box)
    (hdistance : 0.0 ≤ caption.center.manhattan middle)
    (hnear : caption.center.manhattan middle ≤ 3000.0) :
  placer.score {} nodes middle caption ≤ 240.0
  := by
  have hnodes := isWhole_overlapCost isWhole_nodeOverlapPenalty h.nodes
  have hlabels := isWhole_overlapCost isWhole_labelOverlapPenalty h.placed
  have hpaths := isWhole_overlapCost isWhole_pathOverlapPenalty h.drawn
  have hoverlaps := ((isWhole_zero.add hnodes (by norm_num)).add hlabels (by norm_num)).add hpaths
    (by norm_num)
  have hsum := isNearest_add_of_nonneg (hoverlaps.nonneg le_rfl) (nonneg_distanceCost hdistance)
  apply le_of_value hsum.isNumber isWhole_bound.isNumber
  rw [isWhole_bound.value_eq]
  apply hsum.value_le _ (by norm_num)
  rw [hoverlaps.value_eq]
  simpa using value_distanceCost_le hdistance hnear

end Score

/-! ### Places on a path -/

variable {path : List Point} {middle p : Point}

/-- The coordinates of the point are finite. -/
def IsFinitePoint (p : Point) : Prop :=
  IsRational p.x ∧ IsRational p.y

instance : DecidablePred IsFinitePoint :=
  fun _ => inferInstanceAs (Decidable (_ ∧ _))

/-- The ends of a segment are points of the path. -/
theorem mem_of_mem_segments {q : Point} (h : (p, q) ∈ segments path) :
  p ∈ path ∧ q ∈ path
  := by
  induction path with
  | nil => contradiction
  | cons first rest ih => cases rest with
    | nil => contradiction
    | cons second others =>
      rw [segments, List.mem_cons, Prod.mk.injEq] at h
      rcases h with ⟨rfl, rfl⟩ | h
      · exact ⟨List.mem_cons_self, List.mem_cons_of_mem _ List.mem_cons_self⟩
      · exact ⟨List.mem_cons_of_mem _ (ih h).1, List.mem_cons_of_mem _ (ih h).2⟩

/-- The offsets at which labels are tried are finite. -/
theorem isRational_offsets :
  IsRational ({} : CaptionRules).offsetAbove ∧ IsRational ({} : CaptionRules).offsetBelow
    ∧ IsRational ({} : CaptionRules).offsetSide ∧ IsRational ({} : CaptionRules).fallbackOffset
    ∧ IsRational (-({} : CaptionRules).fallbackOffset)
  := by
  decide +kernel

/-- The places that are tried beside a finite segment have coordinates that are numbers. -/
theorem isNumber_besideSegment {a b : Point} (ha : IsFinitePoint a) (hb : IsFinitePoint b)
    (h : p ∈ besideSegment {} a b) :
  IsNumber p.x ∧ IsNumber p.y
  := by
  have hhalf : ∀ {x y : Float32}, IsRational x → IsRational y → IsNumber ((x + y) / 2.0) := by
    intro x y hx hy
    apply isNumber_div (isNearest_add hx hy).isNumber isWhole_two.isRational
    rw [isWhole_two.value_eq]
    norm_num
  obtain ⟨habove, hbelow, hside, -, -⟩ := isRational_offsets
  rw [besideSegment] at h
  split_ifs at h
  · rw [List.mem_pair] at h
    rcases h with rfl | rfl
    · exact ⟨hhalf ha.1 hb.1, (isNearest_sub ha.2 habove).isNumber⟩
    · exact ⟨hhalf ha.1 hb.1, (isNearest_add ha.2 hbelow).isNumber⟩
  · rw [List.mem_pair] at h
    rcases h with rfl | rfl
    · exact ⟨(isNearest_sub ha.1 hside).isNumber, hhalf ha.2 hb.2⟩
    · exact ⟨(isNearest_add ha.1 hside).isNumber, hhalf ha.2 hb.2⟩

/-- Around finite points only numbers are tried as coordinates, though maybe infinite ones. -/
theorem isNumber_places (hpath : ∀ q ∈ path, IsFinitePoint q) (hmiddle : IsFinitePoint middle)
    (h : p ∈ places {} path middle) :
  IsNumber p.x ∧ IsNumber p.y
  := by
  rw [places, List.mem_append, List.mem_flatMap, List.mem_pair] at h
  obtain ⟨-, -, -, hbelow, habove⟩ := isRational_offsets
  have hcentre := (isNearest_add hmiddle.1 isWhole_zero.isRational).isNumber
  rcases h with ⟨⟨a, b⟩, hsegment, hbeside⟩ | rfl | rfl
  · obtain ⟨ha, hb⟩ := mem_of_mem_segments hsegment
    exact isNumber_besideSegment (hpath a ha) (hpath b hb) hbeside
  · exact ⟨hcentre, (isNearest_add hmiddle.2 habove).isNumber⟩
  · exact ⟨hcentre, (isNearest_add hmiddle.2 hbelow).isNumber⟩

/-- A distance to a finite point is not negative. -/
theorem nonneg_manhattan (hx : IsNumber p.x) (hy : IsNumber p.y) (hmiddle : IsFinitePoint middle) :
  0.0 ≤ p.manhattan middle
  := nonneg_add (nonneg_abs (isNumber_sub hx hmiddle.1)) (nonneg_abs (isNumber_sub hy hmiddle.2))

/-! ### The place that is chosen -/

section Choice

variable {placer : CaptionPlacer} {label : String} {nodes : List Rect}

/-- If one of the places tried for a label is in nobody's way and at most 3000 units from the middle of the
path, then the label is written in nobody's way, whatever was placed and drawn before. -/
theorem exists_clear_place (hlabel : label ≠ "") (hlength : 2 ≤ path.length)
    (hpath : ∀ q ∈ path, IsFinitePoint q) (hmiddle : path[path.length / 2]? = some middle)
    (hp : p ∈ candidates {} path middle) (hnear : p.manhattan middle ≤ 3000.0)
    (hclear : placer.IsClear {} nodes (boxAt {} label p)) :
  ∃ caption, placer.place {} label path nodes
      = (some caption, ⟨placer.placed ++ [caption.box], placer.drawn⟩)
    ∧ placer.IsClear {} nodes caption.box
  := by
  have hcentre : IsFinitePoint middle := hpath middle (List.mem_of_getElem? hmiddle)
  have hdistance : ∀ caption ∈ trials {} label path middle, 0.0 ≤ caption.center.manhattan middle := by
    intro caption htrial
    obtain ⟨q, hq, rfl⟩ := mem_trials.mp htrial
    obtain ⟨hx, hy⟩ := isNumber_places hpath hcentre (mem_places_of_mem_candidates hq)
    exact nonneg_manhattan hx hy hcentre
  have hnumber : ∀ caption ∈ trials {} label path middle,
      IsNumber (placer.score {} nodes middle caption) := fun caption htrial =>
    (zero_le_iff.mp (isClear_of_score_le (hdistance caption htrial)).1).1
  have hsome : (placer.choose? {} label path nodes).isSome = true :=
    isSome_choose?_iff.mpr ⟨hlabel, hlength⟩
  obtain ⟨caption, hchoice⟩ := Option.isSome_iff_exists.mp hsome
  refine ⟨caption, by rw [place, hchoice], ?_⟩
  rw [choose?_eq_leastBy hlabel hlength hmiddle] at hchoice
  have hchosen := isFirstLeast_of_leastBy hnumber hchoice
  have htrial : ⟨p, boxAt {} label p⟩ ∈ trials {} label path middle := mem_trials.mpr ⟨p, hp, rfl⟩
  have hscore : placer.score {} nodes middle ⟨p, boxAt {} label p⟩ ≤ 240.0 :=
    score_le_of_isClear hclear (hdistance _ htrial) hnear
  exact (isClear_of_score_le (hdistance caption hchosen.mem)).2
    (Single.le_trans (hchosen.least _ htrial) hscore)

/-- A label is below the end of this path, and nothing is drawn. -/
def crowded : CaptionPlacer × List Point :=
  (⟨[⟨160.0, 110.0, 80.0, 18.0⟩], []⟩, [⟨0.0, 100.0⟩, ⟨200.0, 100.0⟩])

/-- A node above the end of the path leaves the places beside the middle of its segment. -/
theorem exists_clear_place_crowded :
  ∃ caption, crowded.1.place {} "hold" crowded.2 [⟨150.0, 40.0, 100.0, 50.0⟩]
      = (some caption, ⟨crowded.1.placed ++ [caption.box], crowded.1.drawn⟩)
    ∧ crowded.1.IsClear {} [⟨150.0, 40.0, 100.0, 50.0⟩] caption.box
  := by
  have hmiddle : crowded.2[crowded.2.length / 2]? = some ⟨200.0, 100.0⟩ := rfl
  have hbeside : ⟨100.0, 86.0⟩ ∈ candidates {} crowded.2 ⟨200.0, 100.0⟩ := by decide +kernel
  exact exists_clear_place (by decide) (by decide) (by decide +kernel) hmiddle hbeside
    (by decide +kernel) (by decide +kernel)

end Choice

end DiagramLayout.CaptionPlacer
