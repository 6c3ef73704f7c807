import DiagramLayout.Proofs.Scene.Class.Nodes
import DiagramLayout.Proofs.Text.Extent

/-!
# Rows of class boxes

With the standard settings a class box holds its rows: they stand below each other, each in its part
of the box, and their texts are not wider than what the box leaves for them. A box is as wide as its
texts ask or of the greatest width, so a member is shortened only when it is too wide for any box.
-/

namespace DiagramLayout

open Single

/-- The rows of a class stand in order in the two parts of its box and fit its width. -/
structure Compartments.HoldRows (p : Compartments) (box : Rect) (c : ClassNode) : Prop where
  parts : p.rows.map MemberRow.part
    = List.replicate (max 1 c.attributes.length) .attributes
      ++ List.replicate (max 1 c.methods.length) .methods
  increasing : p.rows.Pairwise fun r r' => r.position.y < r'.position.y
  attributes : ∀ r ∈ p.rows, r.part = .attributes →
    p.headerDivider < r.position.y ∧ r.position.y < p.membersDivider
  methods : ∀ r ∈ p.rows, r.part = .methods →
    p.membersDivider < r.position.y ∧ r.position.y < box.bottom
  narrow : ∀ r ∈ p.rows, ClassSettings.standard.charWidths.widthOf r.text ≤ box.width - 24.0
  shortened : List.Forall₂
    (fun member r => r.text ≠ member → 296.0 < ClassSettings.standard.charWidths.widthOf member)
    (ClassNode.rowsOf c.attributes ++ ClassNode.rowsOf c.methods) p.rows

namespace ClassSettings

variable {s : ClassSettings} {box : Rect} {part : Section} {top : Float32} {members : List String}
  {r : MemberRow} {m : ℕ}

theorem length_rowsOf (members : List String) :
  (ClassNode.rowsOf members).length = max 1 members.length
  := by
  cases members with
  | nil => rfl
  | cons member rest =>
    rw [ClassNode.rowsOf, List.isEmpty_cons, if_neg Bool.false_ne_true, List.length_cons]
    omega

/-! ### The rows of one part -/

/-- A part has a row for each member, and one when it has none. -/
theorem length_rows :
  (s.rows box part top members).length = max 1 members.length
  := by
  rw [rows, List.length_mapIdx, length_rowsOf]

/-- Every row stands at its index. -/
theorem exists_of_mem_rows (hr : r ∈ s.rows box part top members) :
  ∃ i < max 1 members.length, ∃ member, r = s.row box part top i member
  := by
  obtain ⟨i, hi, rfl⟩ := List.mem_mapIdx.mp hr
  rw [length_rowsOf] at hi
  exact ⟨i, hi, _, rfl⟩

/-- The rows of a part are marked with it. -/
theorem part_of_mem_rows (hr : r ∈ s.rows box part top members) :
  r.part = part
  := by
  obtain ⟨i, -, member, rfl⟩ := exists_of_mem_rows hr
  rfl

theorem map_part_rows :
  (s.rows box part top members).map MemberRow.part = List.replicate (max 1 members.length) part
  := by
  rw [← length_rows, List.map_eq_replicate_iff]
  intro r hr
  apply part_of_mem_rows hr

/-- What a row shows, member by member. -/
theorem forall₂_rows {R : String → MemberRow → Prop}
    (h : ∀ member ∈ ClassNode.rowsOf members, ∀ i, R member (s.row box part top i member)) :
  List.Forall₂ R (ClassNode.rowsOf members) (s.rows box part top members)
  := by
  rw [List.forall₂_iff_get, rows]
  use List.length_mapIdx.symm
  intro i hi hi'
  rw [List.get_eq_getElem, List.get_eq_getElem, List.getElem_mapIdx]
  apply h _ (List.getElem_mem hi)

/-- The distance of a row from the top of its part. -/
theorem isWhole_row (htop : IsWhole top m) (i : ℕ) (member : String) (h : m + 18 + i * 24 ≤ 2 ^ 24) :
  IsWhole (standard.row box part top i member).position.y (m + 18 + i * 24 : ℕ)
  := by
  have hbaseline : IsWhole standard.rowBaseline 18 := isWhole_ofNat (n := 18) (by norm_num)
  have hrow : IsWhole standard.rowHeight 24 := isWhole_ofNat (n := 24) (by norm_num)
  have hfirst := htop.add hbaseline (by rw [abs_le]; omega)
  push_cast
  apply isWhole_place hfirst hrow i (by omega) (by rw [abs_le]; omega) (by rw [abs_le]; omega)

/-- The part reaches from its top to the end of its rows. -/
theorem isWhole_partEnd (htop : IsWhole top m) (members : List String)
    (hlength : members.length ≤ 100000) (h : m + max 1 members.length * 24 ≤ 2 ^ 23) :
  IsWhole (top + standard.partHeight members) (m + max 1 members.length * 24 : ℕ)
  := by
  rw [Nat.cast_add]
  apply htop.add (ClassNode.isWhole_partHeight members hlength)
  rw [abs_le]
  omega

/-- The rows of a part stand below its top and end before the part does. -/
theorem exists_isWhole_of_mem_rows (htop : IsWhole top m)
    (h : m + max 1 members.length * 24 ≤ 2 ^ 23) (hr : r ∈ standard.rows box part top members) :
  ∃ k : ℕ, IsWhole r.position.y k ∧ m < k ∧ k < m + max 1 members.length * 24
  := by
  obtain ⟨i, hi, member, rfl⟩ := exists_of_mem_rows hr
  refine ⟨_, isWhole_row htop i member (by omega), ?_, ?_⟩
  · omega
  · omega

/-- The rows of a part stand below each other. -/
theorem pairwise_rows (htop : IsWhole top m) (h : m + max 1 members.length * 24 ≤ 2 ^ 23) :
  (standard.rows box part top members).Pairwise fun r r' => r.position.y < r'.position.y
  := by
  rw [List.pairwise_iff_getElem]
  intro i j hi hj hij
  rw [length_rows] at hi hj
  simp only [rows, List.getElem_mapIdx]
  rw [(isWhole_row htop i _ (by omega)).lt_iff (isWhole_row htop j _ (by omega))]
  omega

/-! ### The widths of the texts -/

theorem nonneg_advance (c : Char) :
  0.0 ≤ standard.charWidths.advance c
  := by
  rw [CharWidths.advance]
  split_ifs
  · decide
  · decide
  · decide

/-- A box that is not of the greatest width is as wide as its texts ask. -/
theorem boxWidth_eq_or (c : ClassNode) {text : String} (htext : text ∈ c.texts) :
  IsWhole (standard.boxWidth c) 320
    ∨ standard.charWidths.widthOf text + 34.0 ≤ standard.boxWidth c
  := by
  have hmin : IsWhole standard.minWidth 250 := isWhole_ofNat (n := 250) (by norm_num)
  have hmax : IsWhole standard.maxWidth 320 := isWhole_ofNat (n := 320) (by norm_num)
  have hpadding : 0.0 ≤ standard.textPadding :=
    (isWhole_ofNat (n := 34) (by norm_num)).nonneg (by norm_num)
  have hnonneg := CharWidths.nonneg_widthOf nonneg_advance text
  rw [boxWidth]
  set widest := (c.texts.map standard.charWidths.widthOf).foldl greater standard.minTextWidth
  have hle : standard.charWidths.widthOf text ≤ widest := by
    apply le_foldl_greater (zero_le_iff.mp hnonneg).1
    apply List.mem_cons_of_mem _ (List.mem_map_of_mem htext)
  have hsum := add_le_add_of_nonneg hnonneg hle hpadding
  have hceil := Single.le_trans hsum (le_ceil (Single.le_iff.mp hsum).2.1)
  rcases lesser_eq_or (ceil (widest + standard.textPadding)) standard.maxWidth with h | h
  · right
    rw [h]
    apply Single.le_trans hceil
    apply le_greater_left (Single.le_iff.mp hceil).2.1
  · left
    rw [h]
    apply hmax.greater hmin

/-- What a box leaves for its texts. -/
theorem exists_isWhole_room (c : ClassNode) :
  ∃ w, IsWhole (standard.boxWidth c) w ∧ IsWhole (standard.boxWidth c - 24.0) (w - 24) ∧ 250 ≤ w
    ∧ w ≤ 320
  := by
  obtain ⟨w, hw, hmin, hmax⟩ := c.exists_isWhole_boxWidth
  have hinset : IsWhole 24.0 24 := isWhole_ofNat (n := 24) (by norm_num)
  exact ⟨w, hw, hw.sub hinset (by rw [abs_le]; omega), hmin, hmax⟩

/-- A width that fits the narrowest box fits every box. -/
theorem le_room_of_le (c : ClassNode) {width : Float32} (h : width ≤ 226.0) :
  width ≤ standard.boxWidth c - 24.0
  := by
  obtain ⟨w, -, hroom, hmin, -⟩ := exists_isWhole_room c
  have hleast : IsWhole 226.0 226 := isWhole_ofNat (n := 226) (by norm_num)
  apply Single.le_trans h
  rw [hleast.le_iff hroom]
  omega

/-- A text that fits the widest box fits the box that it stands in. -/
theorem widthOf_le_room (c : ClassNode) {text : String} (htext : text ∈ c.texts)
    (h : standard.charWidths.widthOf text ≤ 296.0) :
  standard.charWidths.widthOf text ≤ standard.boxWidth c - 24.0
  := by
  obtain ⟨w, hw, hroom, hmin, hmax⟩ := exists_isWhole_room c
  rcases boxWidth_eq_or c htext with hfull | hasks
  · have hgreatest : IsWhole 296.0 296 := isWhole_ofNat (n := 296) (by norm_num)
    apply Single.le_trans h
    rw [hgreatest.le_iff hroom, hw.unique hfull]
    norm_num
  · -- With its padding, a text that is too wide would ask for ten more than the box has.
    by_contra hnot
    have hpadding : IsWhole 34.0 34 := isWhole_ofNat (n := 34) (by norm_num)
    have hnonneg := CharWidths.nonneg_widthOf nonneg_advance text
    have hlt := lt_of_not_le (zero_le_iff.mp hnonneg).1 hroom.isNumber hnot
    have hmore := add_le_add_of_nonneg (hroom.nonneg (by omega)) (Single.le_of_lt hlt)
      (hpadding.nonneg (by norm_num))
    have hasked := Single.le_trans hmore hasks
    rw [(hroom.add hpadding (by rw [abs_le]; omega)).le_iff hw] at hasked
    omega

/-! ### All rows -/

/-- A row shows a member or the placeholder. -/
theorem mem_rowsOf {member : String} (h : member ∈ ClassNode.rowsOf members) :
  member ∈ members ∨ member = "-"
  := by
  rw [ClassNode.rowsOf] at h
  split_ifs at h with hempty
  · exact Or.inr (List.mem_singleton.mp h)
  · exact Or.inl h

theorem text_row (i : ℕ) (member : String) :
  (standard.row box part top i member).text = standard.charWidths.fit (box.width - 24.0) member
  := by
  have hinset : (2.0 : Float32) * standard.textInset = 24.0 := by decide
  rw [row, hinset]

/-- The text of a row is no wider than what its box leaves for it. -/
theorem widthOf_le_of_mem_rows {c : ClassNode} (hwidth : box.width = standard.boxWidth c)
    (hr : r ∈ standard.rows box part top members) :
  standard.charWidths.widthOf r.text ≤ box.width - 24.0
  := by
  obtain ⟨i, -, member, rfl⟩ := exists_of_mem_rows hr
  rw [text_row, hwidth]
  apply CharWidths.widthOf_fit_le
  apply le_room_of_le c (by decide)

/-- Only a member that is too wide for every box is shortened in its row. -/
theorem forall₂_shortened {c : ClassNode} (hwidth : box.width = standard.boxWidth c)
    (hmembers : members ⊆ c.texts) :
  List.Forall₂
    (fun member r => r.text ≠ member → 296.0 < standard.charWidths.widthOf member)
    (ClassNode.rowsOf members) (standard.rows box part top members)
  := by
  apply forall₂_rows
  intro member hmember i hshortened
  have hgreatest : IsWhole 296.0 296 := isWhole_ofNat (n := 296) (by norm_num)
  have hnonneg := CharWidths.nonneg_widthOf nonneg_advance member
  apply lt_of_not_le (zero_le_iff.mp hnonneg).1 hgreatest.isNumber
  intro hle
  apply hshortened
  rw [text_row, hwidth]
  apply CharWidths.fit_of_le
  rcases mem_rowsOf hmember with htext | rfl
  · apply widthOf_le_room c (hmembers htext) hle
  · apply le_room_of_le c (by decide)

/-- The rows of a class are those of its attributes and those of its methods. -/
theorem mem_rows_compartments {c : ClassNode} :
  r ∈ (s.compartments box c).rows
    ↔ r ∈ s.rows box .attributes (s.compartments box c).headerDivider c.attributes
      ∨ r ∈ s.rows box .methods (s.compartments box c).membersDivider c.methods
  := List.mem_append

/-! ### The dividers of a box -/

/-- The divider below the name is at a whole height. -/
theorem isWhole_headerDivider (c : ClassNode) (hy : IsWhole box.y m) (hm : m + 42 ≤ 2 ^ 23) :
  IsWhole (standard.compartments box c).headerDivider (m + 42 : ℕ)
  := by
  have hoffset : IsWhole standard.dividerOffset 42 := isWhole_ofNat (n := 42) (by norm_num)
  apply hy.add hoffset
  rw [abs_le]
  omega

/-- The divider below the attributes is at a whole height. -/
theorem isWhole_membersDivider (c : ClassNode) (hy : IsWhole box.y m)
    (hlength : c.attributes.length ≤ 100000)
    (hm : m + 42 + max 1 c.attributes.length * 24 ≤ 2 ^ 23) :
  IsWhole (standard.compartments box c).membersDivider
    (m + 42 + max 1 c.attributes.length * 24 : ℕ)
  := isWhole_partEnd (isWhole_headerDivider c hy (by omega)) c.attributes hlength hm

/-- The box of a class ends at a whole height. -/
theorem isWhole_bottom {c : ClassNode} (hy : IsWhole box.y m)
    (hheight : box.height = standard.boxHeight c) (hcount : c.memberCount ≤ 100000)
    (hm : m + c.tallness ≤ 2 ^ 23) :
  IsWhole box.bottom (m + c.tallness : ℕ)
  := by
  rw [Rect.bottom, hheight, Nat.cast_add]
  apply hy.add (ClassNode.isWhole_boxHeight hcount)
  rw [abs_le]
  omega

/-- A box with the size that its class asks for holds the rows of the class. -/
theorem holdRows_compartments {c : ClassNode} (hy : IsWhole box.y m)
    (hwidth : box.width = standard.boxWidth c) (hheight : box.height = standard.boxHeight c)
    (hcount : c.memberCount ≤ 100000) (hm : m + c.tallness ≤ 2 ^ 23) :
  (standard.compartments box c).HoldRows box c
  := by
  have hbottom := isWhole_bottom hy hheight hcount hm
  rw [ClassNode.tallness] at hm hbottom
  rw [ClassNode.memberCount] at hcount
  have hheader := isWhole_headerDivider c hy (by omega)
  have hdivider := isWhole_membersDivider c hy (by omega) (by omega)
  -- Every row stands at a whole height between the dividers of its part.
  have hattribute : ∀ r ∈ standard.rows box .attributes _ c.attributes, ∃ k : ℕ,
      IsWhole r.position.y k ∧ m + 42 < k ∧ k < m + 42 + max 1 c.attributes.length * 24 :=
    fun r => exists_isWhole_of_mem_rows hheader (by omega)
  have hmethod : ∀ r ∈ standard.rows box .methods _ c.methods, ∃ k : ℕ,
      IsWhole r.position.y k ∧ m + 42 + max 1 c.attributes.length * 24 < k
        ∧ k < m + 42 + max 1 c.attributes.length * 24 + max 1 c.methods.length * 24 :=
    fun r => exists_isWhole_of_mem_rows hdivider (by omega)
  constructor
  case parts => rw [compartments, List.map_append, map_part_rows, map_part_rows]
  case increasing =>
    apply List.pairwise_append.mpr
    refine ⟨pairwise_rows hheader (by omega), pairwise_rows hdivider (by omega), ?_⟩
    intro r hr r' hr'
    obtain ⟨k, hk, -, hend⟩ := hattribute r hr
    obtain ⟨l, hl, hbegin, -⟩ := hmethod r' hr'
    rw [hk.lt_iff hl]
    omega
  case attributes =>
    intro r hr hpart
    rcases mem_rows_compartments.mp hr with hr | hr
    · obtain ⟨k, hk, hbegin, hend⟩ := hattribute r hr
      use (hheader.lt_iff hk).mpr (by omega)
      apply (hk.lt_iff hdivider).mpr
      omega
    · rw [part_of_mem_rows hr] at hpart
      contradiction
  case methods =>
    intro r hr hpart
    rcases mem_rows_compartments.mp hr with hr | hr
    · rw [part_of_mem_rows hr] at hpart
      contradiction
    · obtain ⟨k, hk, hbegin, hend⟩ := hmethod r hr
      use (hdivider.lt_iff hk).mpr (by omega)
      apply (hk.lt_iff hbottom).mpr
      omega
  case narrow =>
    intro r hr
    rcases mem_rows_compartments.mp hr with hr | hr
    · apply widthOf_le_of_mem_rows hwidth hr
    · apply widthOf_le_of_mem_rows hwidth hr
  case shortened =>
    apply List.rel_append
    · apply forall₂_shortened hwidth
      intro member hmember
      apply List.mem_append_left _ (List.mem_cons_of_mem _ hmember)
    · apply forall₂_shortened hwidth
      apply List.subset_append_right

end ClassSettings

namespace ClassDiagram

/-- In every scene of a moderate diagram, each class has a node whose box holds the rows of the
class. -/
theorem holdRows_scene {d : ClassDiagram} (hd : d.IsModerate) :
  List.Forall₂
    (fun e p => ∃ n, (d.scene .standard).nodes.find? e.1 = some n ∧ p.HoldRows n.box e.2)
    d.classes.entries (d.scene .standard).compartments
  := by
  have hcompartments : (d.scene .standard).compartments = d.classes.entries.map fun e =>
      ClassSettings.standard.compartments (node .standard (d.places .standard) e.1 e.2).box e.2 := rfl
  rw [hcompartments, List.forall₂_map_right_iff, List.forall₂_same]
  intro e he
  have hclass : d.classes.find? e.1 = some e.2 := Catalog.find?_eq_some_iff.mpr he
  have hplaces := isPlacement_places hd
  obtain ⟨n, corner, hn, hcorner, hbox⟩ :=
    exists_node hplaces (Catalog.exists_find?_iff.mp ⟨e.2, hclass⟩)
  obtain ⟨-, m, hy, hm⟩ := hplaces.nonneg _ hcorner
  have hcount := memberCount_le hclass
  have hmembers := hd.members
  have heq : n = node .standard (d.places .standard) e.1 e.2 :=
    Option.some.inj (hn.symm.trans (find?_nodes hclass))
  use n, hn
  rw [← heq, hbox]
  rw [tallness, hclass] at hm
  apply ClassSettings.holdRows_compartments hy _ _ (by omega) hm
  · rw [boxAt, sizeOf_eq hclass, ClassSettings.sizeOf]
  · rw [boxAt, sizeOf_eq hclass, ClassSettings.sizeOf]

/-- A class with an attribute that is too wide for every box, and without methods. -/
def crowded : ClassDiagram :=
  ⟨.ofList [("A", ⟨"A", ["an attribute that is much wider than the widest box"], []⟩)], []⟩

/-- The rows of the crowded class stand in its box. -/
theorem holdRows_crowded :
  crowded.IsModerate
    ∧ List.Forall₂
        (fun e p => ∃ n, (crowded.scene .standard).nodes.find? e.1 = some n ∧ p.HoldRows n.box e.2)
        crowded.classes.entries (crowded.scene .standard).compartments
  := by
  have hmoderate : crowded.IsModerate := ⟨by decide, by decide⟩
  exact ⟨hmoderate, holdRows_scene hmoderate⟩

end ClassDiagram

end DiagramLayout
