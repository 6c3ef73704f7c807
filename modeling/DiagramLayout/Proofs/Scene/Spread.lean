import DiagramLayout.Proofs.Scene.Lane
import DiagramLayout.Settings.Sections

/-!
# Parallel edges lie apart

The edges of a scene take their lanes one after another. The offset of each is the next one behind the edges
before it in its direction, on the side that its direction keeps for the whole scene. So with the standard
base and step no two edges between the same nodes have the same offset.
-/

namespace DiagramLayout.Lanes

open Single

/-- The offsets of edges in some directions that take their lanes one after another. -/
def offsets (lanes : Lanes) (base step : Float32) : List (String × String) → List Float32
  | [] => []
  | r :: rest => lanes.offset r.1 r.2 base step :: (lanes.take r.1 r.2).offsets base step rest

/-- The offsets with the standard base and step. -/
def standardOffsets (edges : List (String × String)) : List Float32 :=
  offsets [] ({} : StateSettings).laneBase ({} : StateSettings).laneStep edges

/-- The sign of the side on which all edges in the direction lie. -/
def side (edges : List (String × String)) (r : String × String) : Float32 :=
  if leads edges r.1 r.2 then 1.0 else -1.0

/-- Edges have the offsets of their directions, which are on opposite sides, and so lie apart. -/
structure AreSpread (edges : List (String × String)) : Prop where
  length (base step : Float32) : (offsets [] base step edges).length = edges.length
  offset (base step : Float32) (i : ℕ) (r : String × String) : edges[i]? = some r →
    (offsets [] base step edges)[i]?
      = some (side edges r * (base + Float32.ofNat ((edges.take i).count r) * step))
  first (i : ℕ) (r : String × String) : edges[i]? = some r → r ∉ edges.take i →
    r.swap ∉ edges.take i → side edges r = 1.0
  loop (id : String) : side edges (id, id) = 1.0
  opposite (r : String × String) : r ∈ edges → r.1 ≠ r.2 →
    side edges r = 1.0 ∧ side edges r.swap = -1.0 ∨ side edges r = -1.0 ∧ side edges r.swap = 1.0
  apart (i j : ℕ) (r s : String × String) : edges.length < 100000 → i < j →
    edges[i]? = some r → edges[j]? = some s → s = r ∨ s = r.swap →
    ∀ x ∈ (standardOffsets edges)[i]?, ∀ y ∈ (standardOffsets edges)[j]?, x < y ∨ y < x

variable {edges : List (String × String)} {r s : String × String} {i j : ℕ}

/-! ### One edge after another -/

/-- One more request takes the next lane. -/
theorem after_concat (past : List (String × String)) (r : String × String) :
  after (past ++ [r]) = (after past).take r.1 r.2
  := List.foldl_concat _ _ r past

/-- Every request gets an offset. -/
theorem length_offsets (lanes : Lanes) (base step : Float32) (edges : List (String × String)) :
  (lanes.offsets base step edges).length = edges.length
  := by
  induction edges generalizing lanes with
  | nil => rfl
  | cons r rest ih => rw [offsets, List.length_cons, ih, List.length_cons]

/-- Each edge finds the lanes behind those before it. -/
theorem getElem?_offsets (past edges : List (String × String)) (base step : Float32) (i : ℕ) :
  ((after past).offsets base step edges)[i]?
    = edges[i]?.map fun r => (after (past ++ edges.take i)).offset r.1 r.2 base step
  := by
  induction edges generalizing past i with
  | nil => rfl
  | cons r rest ih => cases i with
    | zero =>
      rw [offsets, List.take_zero, List.append_nil]
      rfl
    | succ i =>
      rw [offsets, List.getElem?_cons_succ, ← after_concat, ih, List.getElem?_cons_succ,
        List.take_succ_cons, List.append_assoc, List.singleton_append]

theorem take_succ_of_getElem? (h : edges[i]? = some r) :
  edges.take (i + 1) = edges.take i ++ [r]
  := by
  rw [List.take_add_one, h, Option.toList_some]

/-- The direction of an edge leads in the whole scene if it does so when the edge is drawn. -/
theorem leads_take (h : edges[i]? = some r) :
  leads (edges.take i) r.1 r.2 = leads edges r.1 r.2
  := by
  have hmem : (r.1, r.2) ∈ edges.take i ++ [r] := List.mem_append_right _ (List.mem_singleton_self r)
  rw [← leads_concat, ← leads_append hmem (edges.drop (i + 1)), ← take_succ_of_getElem? h,
    List.take_append_drop]

/-- An offset depends on the requests before it only. -/
theorem getElem?_offsets_initial (h : edges[i]? = some r) (base step : Float32) :
  (offsets [] base step edges)[i]? = some ((after (edges.take i)).offset r.1 r.2 base step)
  := by
  have hoffset := getElem?_offsets [] edges base step i
  rw [h, Option.map_some, List.nil_append] at hoffset
  exact hoffset

/-- The offset of an edge depends on the side of its direction and the number of edges before it in this
direction. -/
theorem offset_after_take (h : edges[i]? = some r) (base step : Float32) :
  (after (edges.take i)).offset r.1 r.2 base step
    = side edges r * (base + Float32.ofNat ((edges.take i).count r) * step)
  := by
  rw [Lanes.offset, direction_after, laneAfter, leads_take h, side]

/-! ### Sides -/

/-- The direction that was first in its pair is on the positive side. -/
theorem side_of_leads (h : leads edges r.1 r.2 = true) :
  side edges r = 1.0
  := if_pos h

/-- The other direction of a pair is on the negative side. -/
theorem side_of_not_leads (h : leads edges r.1 r.2 = false) :
  side edges r = -1.0
  := by
  rw [side, h]
  rfl

/-- Nodes that are connected are first connected in one of the two directions. -/
theorem exists_first {source target : String} (h : (source, target) ∈ edges) :
  ∃ first, edges.find? (fun r => r == (source, target) || r == (target, source)) = some first
    ∧ (first = (source, target) ∨ first = (target, source))
  := by
  have hsome : (edges.find? fun r => r == (source, target) || r == (target, source)).isSome := by
    rw [List.find?_isSome]
    exact ⟨(source, target), h, by simp⟩
  obtain ⟨first, hfirst⟩ := Option.isSome_iff_exists.mp hsome
  have hends := List.find?_some hfirst
  rw [Bool.or_eq_true, beq_iff_eq, beq_iff_eq] at hends
  exact ⟨first, hfirst, hends⟩

theorem leads_self (edges : List (String × String)) (id : String) :
  leads edges id id = true
  := by
  have hmem : (id, id) ∈ edges ++ [(id, id)] := List.mem_append_right _ (List.mem_singleton_self _)
  obtain ⟨first, hfirst, hends⟩ := exists_first hmem
  rw [or_self] at hends
  rw [leads, hfirst, hends, beq_self_eq_true]

/-- Of the two directions between nodes that are connected exactly one leads. -/
theorem leads_swap (h : r ∈ edges) (hne : r.1 ≠ r.2) :
  leads edges r.2 r.1 = !leads edges r.1 r.2
  := by
  obtain ⟨source, target⟩ := r
  obtain ⟨first, hfirst, hends⟩ := exists_first h
  have hcomm : (edges.find? fun s => s == (target, source) || s == (source, target)) = some first := by
    simp only [Bool.or_comm, hfirst]
  rw [leads, leads, List.find?_append, List.find?_append, hfirst, hcomm, Option.some_or, Option.some_or,
    Option.some_beq_some, Option.some_beq_some]
  dsimp only at hne ⊢
  have hne' : ((source, target) == (target, source)) = false :=
    beq_eq_false_iff_ne.mpr fun heq => hne (Prod.mk.inj heq).1
  rcases hends with rfl | rfl
  · rw [hne', beq_self_eq_true, Bool.not_true]
  · rw [BEq.comm.trans hne', beq_self_eq_true, Bool.not_false]

/-! ### Standard lanes -/

/-- A later request of one direction has more requests before it. -/
theorem count_take_lt (h : edges[i]? = some r) (hij : i < j) :
  (edges.take i).count r < (edges.take j).count r
  := by
  have hle : (edges.take (i + 1)).count r ≤ (edges.take j).count r :=
    (List.take_sublist_take_left hij).count_le r
  rw [take_succ_of_getElem? h, List.count_append, List.count_singleton_self] at hle
  exact hle

/-- The whole number that the standard offset of an edge is. -/
def place (edges : List (String × String)) (i : ℕ) (r : String × String) : ℤ :=
  sideSign edges r.1 r.2 * (12 + (edges.take i).count r * 10)

/-- The standard offsets are whole. -/
theorem isWhole_standardOffset {x : Float32} (hlength : edges.length < 100000) (h : edges[i]? = some r)
    (hx : x ∈ (standardOffsets edges)[i]?) :
  IsWhole x (place edges i r)
  := by
  obtain ⟨source, target⟩ := r
  have hcount : (edges.take i).count (source, target) ≤ 100000 := by
    calc _ ≤ (edges.take i).length := List.count_le_length
      _ ≤ edges.length := List.length_take_le' i edges
      _ ≤ 100000 := hlength.le
  have hbase : IsWhole ({} : StateSettings).laneBase 12 := isWhole_ofNat (n := 12) (by norm_num)
  have hstep : IsWhole ({} : StateSettings).laneStep 10 := isWhole_ofNat (n := 10) (by norm_num)
  have hwhole : IsWhole ((after (edges.take i)).offset source target ({} : StateSettings).laneBase
      ({} : StateSettings).laneStep)
      (sideSign (edges.take i) source target * (12 + (edges.take i).count (source, target) * 10)) := by
    apply isWhole_offset hbase hstep
    · exact hcount.trans (by norm_num)
    · rw [abs_le]
      omega
    · rw [abs_le]
      omega
  rw [sideSign, leads_take h, ← sideSign] at hwhole
  obtain rfl := Option.some.inj ((getElem?_offsets_initial h _ _).symm.trans hx)
  exact hwhole

/-- Edges between the same nodes have different places: in one direction each lies farther out than those
before it, and in opposite directions they lie on different sides. -/
theorem place_ne (hij : i < j) (hi : edges[i]? = some r) (hj : edges[j]? = some s)
    (hsame : s = r ∨ s = r.swap) :
  place edges i r ≠ place edges j s
  := by
  rw [place, place]
  rcases eq_or_ne r s with rfl | hne
  · have hcount := count_take_lt hi hij
    rw [sideSign]
    split_ifs
    all_goals omega
  · obtain rfl := hsame.resolve_left hne.symm
    have hends : r.1 ≠ r.2 := fun heq => hne (Prod.ext heq heq.symm)
    have hswap := leads_swap (List.mem_of_getElem? hi) hends
    rw [sideSign, sideSign, Prod.fst_swap, Prod.snd_swap, hswap]
    cases leads edges r.1 r.2
    all_goals
      simp only [Bool.not_true, Bool.not_false, Bool.false_eq_true, if_true, if_false]
      omega

/-- However edges follow one another, their lanes keep them apart. -/
theorem areSpread (edges : List (String × String)) :
  AreSpread edges
  := by
  constructor
  · exact fun base step => length_offsets [] base step edges
  · intro base step i r h
    rw [getElem?_offsets_initial h, offset_after_take h]
  · intro i r h hnew hnew'
    apply side_of_leads
    rw [← leads_take h]
    exact leads_of_not_mem hnew hnew'
  · exact fun id => side_of_leads (leads_self edges id)
  · intro r h hne
    have hswap := leads_swap h hne
    cases hleads : leads edges r.1 r.2 with
    | true =>
      rw [hleads] at hswap
      exact .inl ⟨side_of_leads hleads, side_of_not_leads hswap⟩
    | false =>
      rw [hleads] at hswap
      exact .inr ⟨side_of_not_leads hleads, side_of_leads hswap⟩
  · intro i j r s hlength hij hi hj hsame x hx y hy
    have hx' := isWhole_standardOffset hlength hi hx
    have hy' := isWhole_standardOffset hlength hj hy
    rw [hx'.lt_iff hy', hy'.lt_iff hx']
    exact lt_or_gt_of_ne (place_ne hij hi hj hsame)

end DiagramLayout.Lanes
