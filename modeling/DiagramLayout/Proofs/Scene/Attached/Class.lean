import DiagramLayout.Proofs.Scene.Attached.Basic
import DiagramLayout.Proofs.Scene.Class.Slots
import DiagramLayout.Proofs.Scene.Tidy.Class

/-!
# Attached relations

The boxes of classes stand within reach: no row of moderate length leads beyond `2 ^ 24`. A slot divides
the side of a parent by a ratio between zero and one, however many heirs there are, so an inheritance
is attached like any other relation.
-/

namespace DiagramLayout

open Single

/-! ### Slots -/

namespace Slot

variable {nodes : Catalog Node} {relations : List ClassRelation} {slot : Slot}

/-- The rank of a slot is less than its count, which is at most the number of relations. -/
theorem rank_lt_of_find? {id : String} (h : (all nodes relations).find? id = some slot) :
  slot.rank < slot.count ∧ slot.count ≤ relations.length
  := by
  obtain ⟨hrank, r, -, -, -, hcount⟩ := exists_of_find?_all h
  refine ⟨hrank, ?_⟩
  rw [hcount]
  apply List.countP_le_length

/-- A number between zero and one. -/
structure IsRatio (x : Float32) : Prop where
  isRational : IsRational x
  nonneg : 0 ≤ value x
  le_one : value x ≤ 1

/-- A slot divides its side in a ratio between zero and one. -/
theorem isRatio_ratio (h : slot.rank < slot.count) (hcount : slot.count < 2 ^ 24) :
  IsRatio slot.ratio
  := by
  obtain ⟨hrank, hrank'⟩ := value_ofNat (n := slot.rank + 1) (by omega)
  obtain ⟨hcount, hcount'⟩ := value_ofNat (n := slot.count + 1) (by omega)
  have hpos : (0 : ℚ) < (slot.count + 1 : ℕ) := by exact_mod_cast Nat.succ_pos _
  have hratio : IsNearest slot.ratio ((slot.rank + 1 : ℕ) / (slot.count + 1 : ℕ)) := by
    rw [← hrank', ← hcount']
    exact isNearest_div hrank hcount (by rw [hcount']; exact hpos.ne')
  have hlow : 0.0 ≤ slot.ratio := by
    apply isNumber_zero.isNearest.le hratio
    rw [value_zero]
    positivity
  have hhigh : value slot.ratio ≤ (1 : ℕ) := by
    apply hratio.value_le _ (by norm_num)
    rw [div_le_iff₀ hpos]
    push_cast
    have hle : (slot.rank : ℚ) ≤ slot.count := by exact_mod_cast h.le
    linarith
  obtain ⟨hnumber, hnonneg⟩ := zero_le_iff.mp hlow
  rw [Nat.cast_one] at hhigh
  refine ⟨hnumber.isRational ?_, hnonneg, hhigh⟩
  rw [abs_of_nonneg hnonneg]
  exact hhigh.trans_lt (by norm_num)

theorem isRatio_half :
  IsRatio 0.5
  := by
  have hhalf : (0.5 : Float32) = ratio ⟨0, 1⟩ := by decide +kernel
  rw [hhalf]
  exact isRatio_ratio (by norm_num) (by norm_num)

end Slot

/-- An inheritance joins the borders of the two boxes, wherever its slot is. -/
theorem ClassRelation.isOnBorders_inheritanceEnds {heir parent : Rect} {slot : Slot}
    {inset : Float32} (hheir : heir.HasRoom inset) (hparent : parent.HasRoom inset)
    (hratio : Slot.IsRatio slot.ratio) :
  (inheritanceEnds heir parent slot).IsOnBorders heir parent
  := by
  have hhalf := Slot.isRatio_half
  unfold inheritanceEnds
  split_ifs
  · exact ⟨rfl, rfl,
      Rect.hasOnBorder_dividing hheir _ hhalf.isRational hhalf.nonneg hhalf.le_one,
      Rect.hasOnBorder_dividing hparent _ hratio.isRational hratio.nonneg hratio.le_one⟩
  · exact ⟨rfl, rfl,
      Rect.hasOnBorder_dividing hheir _ hhalf.isRational hhalf.nonneg hhalf.le_one,
      Rect.hasOnBorder_dividing hparent _ hratio.isRational hratio.nonneg hratio.le_one⟩

/-- Every relation joins the borders of its two boxes. -/
theorem ClassRelation.isOnBorders_ends {r : ClassRelation} {nodes : Catalog Node}
    {relations : List ClassRelation} {source target : Node}
    (hrelations : relations.length < 2 ^ 24)
    (hsource : source.box.HasRoom Settings.standard.attachment.inset)
    (htarget : target.box.HasRoom Settings.standard.attachment.inset) :
  (r.ends .standard (Slot.all nodes relations) source target).IsOnBorders source.box target.box
  := by
  unfold ends
  split_ifs
  · apply isOnBorders_inheritanceEnds hsource htarget
    cases hslot : (Slot.all nodes relations).find? r.id with
    | none =>
      have hfirst : Slot.IsRatio (Slot.mk 0 1).ratio :=
        Slot.isRatio_ratio (by norm_num) (by norm_num)
      exact hfirst
    | some slot =>
      obtain ⟨hrank, hcount⟩ := Slot.rank_lt_of_find? hslot
      exact Slot.isRatio_ratio hrank (hcount.trans_lt hrelations)
  · exact Attachment.isOnBorders_select hsource htarget

/-! ### The reach of class boxes -/

namespace ClassDiagram

variable {d : ClassDiagram} {row : List String} {rows : List (List String)} {x y : Float32}
  {e : String × Point} {k : ℕ} {n : Node}

theorem exists_of_mem_stacked {s : ClassSettings} {lay : Float32 → List String → Places}
    {gap : Float32} (he : e ∈ d.stacked s lay gap y rows) :
  ∃ row ∈ rows, ∃ y, e ∈ lay y row
  := by
  induction rows generalizing y with
  | nil => contradiction
  | cons row rest ih =>
    rcases List.mem_append.mp he with he | he
    · exact ⟨row, List.mem_cons_self, y, he⟩
    · obtain ⟨row', hrow', y', he'⟩ := ih he
      exact ⟨row', List.mem_cons_of_mem row hrow', y', he'⟩

/-- Each box of a row takes at most 410 units, its gap included. -/
theorem value_le_of_mem_placeRow (hx : 0.0 ≤ x) (hk : value x ≤ k)
    (hrow : ∀ name ∈ row, name ∈ d.classes.keys) (hbound : k + 410 * row.length ≤ 2 ^ 24)
    (he : e ∈ d.placeRow .standard x y row) :
  value e.2.x + 320 ≤ (k + 410 * row.length : ℕ)
  := by
  induction row generalizing x k with
  | nil => contradiction
  | cons name rest ih =>
    obtain ⟨hname, hrest⟩ := List.forall_mem_cons.mp hrow
    obtain ⟨w, hw, hlow, hhigh⟩ := exists_isWhole_width hname
    have hstep := hw.add isWhole_horizontalGap (by rw [abs_le]; omega)
    have hstep' := hstep.nonneg (by omega)
    rw [List.length_cons] at hbound ⊢
    rcases List.mem_cons.mp he with rfl | he
    · push_cast
      have hlength : (0 : ℚ) ≤ rest.length := Nat.cast_nonneg _
      linarith
    · have hnext : value (x + ((d.sizeOf .standard name).width
          + ClassSettings.standard.horizontalGap)) ≤ (k + 410 : ℕ) := by
        have hle : k + 410 ≤ 2 ^ 24 :=
          (Nat.add_le_add_left (Nat.le_mul_of_pos_right 410 (Nat.succ_pos _)) k).trans hbound
        apply (isNearest_add_of_nonneg hx hstep').value_le _ hle
        rw [hstep.value_eq]
        have hw' : ((w + 90 : ℤ) : ℚ) ≤ 410 := by exact_mod_cast (by omega : w + 90 ≤ 410)
        push_cast at hw' ⊢
        linarith
      have hsplit : k + 410 * (rest.length + 1) = k + 410 + 410 * rest.length := by omega
      rw [hsplit]
      exact ih (nonneg_add hx hstep') hnext hrest (by omega) he

/-- A row that is centred on the widest one begins at half of its width at most. -/
theorem value_centred_le {width : Float32} {w v : ℤ} (hwidth : IsWhole width w) (hx : IsWhole x v)
    (hv : 0 ≤ v) (hvw : v ≤ w) (hw : w < 2 ^ 23) :
  value (ClassSettings.standard.startX + (width - x) / 2.0) ≤ (5000000 : ℕ)
  := by
  have hstart : IsWhole ClassSettings.standard.startX 90 := isWhole_ofNat (n := 90) (by norm_num)
  have hrest := hwidth.sub hx (by rw [abs_le]; omega)
  have hhalf := hrest.div isWhole_two (by rw [abs_lt]; omega) (by norm_num) (by norm_num)
  apply (isNearest_add hstart.isRational hhalf.isRational).value_le _ (by norm_num)
  have hle := hhalf.value_le (k := 2 ^ 22) (by omega)
  rw [hstart.value_eq]
  norm_num at hle ⊢
  linarith

/-- The boxes of a moderate diagram end before `2 ^ 24`. -/
theorem value_le_of_mem_places (hd : d.IsModerate) (he : e ∈ d.places .standard) :
  value e.2.x + 320 ≤ 2 ^ 24
  := by
  rw [places] at he
  cases hrows : d.hierarchy? with
  | none =>
    simp only [hrows, gridRows_eq] at he
    obtain ⟨row, hrow, y, he⟩ := exists_of_mem_stacked he
    obtain ⟨column, hcolumn, rfl⟩ := List.mem_mapIdx.mp he
    have hlength := (length_le_of_mem (.of_eq d.flatten_grid) hrow).trans hd.size
    have hx := isWhole_column column (by omega)
    rw [gridPlace, hx.value_eq]
    exact_mod_cast (by omega : 90 + column * (320 + 90) + 320 ≤ 2 ^ 24)
  | some rows =>
    obtain ⟨levels, -, hlevelled⟩ := isLevelled_hierarchy hrows
    simp only [hrows, hierarchyPlaces, placeRows_eq] at he
    obtain ⟨row, hrow, y, he⟩ := exists_of_mem_stacked he
    have hknown : ∀ row ∈ rows, ∀ name ∈ row, name ∈ d.classes.keys := by
      intro row hrow name hname
      apply hlevelled.perm.mem_iff.mp (List.mem_flatten_of_mem hrow hname)
    have hlength : ∀ row ∈ rows, row.length ≤ 20002 := by
      intro row hrow
      apply (length_le_of_mem hlevelled.perm hrow).trans hd.size
    obtain ⟨v, hv, -, hnonneg⟩ := exists_isWhole_rowWidth (hknown row hrow) (hlength row hrow)
    obtain ⟨w, hw, hlt⟩ := exists_isWhole_widest hknown hlength
    have hvw := rowWidth_le_widest hrow hv hw
    have hlength' := hlength row hrow
    have hle := value_le_of_mem_placeRow (nonneg_centred hw hv hnonneg hvw hlt)
      (value_centred_le hw hv hnonneg hvw hlt) (hknown row hrow) (by omega) he
    apply hle.trans
    exact_mod_cast (by omega : 5000000 + 410 * row.length ≤ 2 ^ 24)

/-- The box of a class has room for anchors. -/
theorem hasRoom_box (hd : d.IsModerate) (hn : n ∈ (d.nodes .standard).values) :
  n.box.HasRoom Settings.standard.attachment.inset
  := by
  have hplaces := isPlacement_places hd
  obtain ⟨e, he, -, hname, hbox⟩ := exists_place hplaces hn
  obtain ⟨hx, m, hm, hm'⟩ := hplaces.nonneg e he
  obtain ⟨w, hw, hlow, hhigh⟩ := exists_isWhole_width hname
  have hreach := value_le_of_mem_places hd he
  have hheight := isWhole_height hname hd.members
  -- Even a box without members is taller than the inset.
  have htall : 12 ≤ d.tallness e.1 := by
    obtain ⟨c, hc⟩ := Catalog.exists_find?_iff.mpr hname
    rw [tallness, hc, Option.map_some, Option.getD_some, ClassNode.tallness]
    omega
  have hbottom := hm.add hheight (by rw [abs_le]; omega)
  rw [hbox]
  constructor
  case x =>
    have hleft : value e.2.x ≤ 2 ^ 24 := by linarith
    exact isWithin_of_nonneg hx hleft (by norm_num)
  case y => exact hm.isWithin (by rw [abs_le]; omega)
  case width => exact hw.isRational
  case height => exact hheight.isRational
  case right =>
    have hright : value (d.rightEnd e) ≤ (2 ^ 24 : ℕ) := by
      apply (isNearest_add_of_nonneg hx (hw.nonneg (by omega))).value_le _ le_rfl
      rw [hw.value_eq]
      have hw' : (w : ℚ) ≤ 320 := by exact_mod_cast hhigh
      push_cast
      linarith
    exact isWithin_of_nonneg (hplaces.nonneg_rightEnd he hname) (by exact_mod_cast hright)
      (by norm_num)
  case bottom => exact hbottom.isWithin (by rw [abs_le]; omega)
  case nonneg => exact isWhole_inset.nonneg (by norm_num)
  case le_width => exact (isWhole_inset.le_iff hw).mpr (by omega)
  case le_height => exact (isWhole_inset.le_iff hheight).mpr (by exact_mod_cast htall)

/-! ### The edges -/

/-- The edges of a moderate class diagram are attached. -/
theorem isAttached_scene (hd : d.IsModerate) (hrelations : d.relations.length < 2 ^ 24) :
  (d.scene .standard).IsAttached
  := by
  intro e he
  obtain ⟨r, -, hedge⟩ := List.mem_filterMap.mp he
  rw [ClassRelation.edge?] at hedge
  split at hedge
  case h_2 => contradiction
  case h_1 source target hsource htarget =>
    obtain rfl := Option.some.inj hedge
    obtain ⟨hsource', hid⟩ := find?_nodes_iff.mp hsource
    obtain ⟨htarget', hid'⟩ := find?_nodes_iff.mp htarget
    have hstubs : ClassSettings.standard.route.HasStubs :=
      RouteSpacing.hasStubs (isWhole_ofNat (n := 14) (by norm_num)) (by norm_num) (by norm_num)
    have hroom := hasRoom_box hd hsource'
    have hroom' := hasRoom_box hd htarget'
    refine Edge.isAttached_of_route source target ?_ ?_ rfl
      (ClassRelation.isOnBorders_ends hrelations hroom hroom') hroom' hasPenalties_standard hstubs
    · rw [← hid] at hsource
      exact hsource
    · rw [← hid'] at htarget
      exact htarget

end ClassDiagram

end DiagramLayout
