import DiagramLayout.Proofs.Scene.Attached.Basic
import DiagramLayout.Proofs.Scene.Drawing
import DiagramLayout.Proofs.Scene.Tidy.State
import DiagramLayout.Proofs.Script.Size

/-!
# Transitions in their lanes

The ends of a transition are selected on sides of its boxes and then moved to its lane: down or up where
the boxes lie rather side by side, and to the right or left otherwise, whatever the sides are. On a side
that runs in this direction an end slides along its box, and past a corner in a lane that is far out.
From any other side it is moved off its box or into it.
-/

namespace DiagramLayout

open Single

/-! ### Near a rectangle -/

/-- The point lies in the rectangle grown by a distance, and not inside the rectangle. -/
def Rect.HasNear (r : Rect) (distance : Float32) (p : Point) : Prop :=
  (r.inflate distance).contains p = true
    ∧ ¬((r.x < p.x ∧ p.x < r.right) ∧ r.y < p.y ∧ p.y < r.bottom)

instance (r : Rect) (distance : Float32) (p : Point) : Decidable (r.HasNear distance p) :=
  inferInstanceAs (Decidable (_ ∧ _))

/-- The edge begins near the box of its source and ends near the box of its target. -/
structure Edge.IsNear (e : Edge) (nodes : Catalog Node) : Prop where
  leaves : ∃ n p, nodes.find? e.source = some n ∧ e.points.head? = some p ∧ n.box.HasNear 40.0 p
  arrives : ∃ n p, nodes.find? e.target = some n ∧ e.points.getLast? = some p
    ∧ n.box.HasNear 40.0 p

/-- The rectangle has whole coordinates of moderate size and even sides that are not short. -/
structure Rect.IsModestAt (r : Rect) (x y w h : ℤ) : Prop where
  isAt : r.IsAt x y (w * 2) (h * 2)
  x_mem : 0 ≤ x ∧ x ≤ 5000000
  y_mem : 0 ≤ y ∧ y ≤ 5000000
  width_mem : 10 ≤ w ∧ w ≤ 70
  height_mem : 10 ≤ h ∧ h ≤ 70

namespace Rect.IsModestAt

variable {r : Rect} {p : Point} {x y w h m n : ℤ}

/-- The bounds of a modest rectangle are whole. -/
theorem spans (hr : r.IsModestAt x y w h) :
  r.Spans x (x + w * 2) y (y + h * 2)
  := by
  obtain ⟨hbox, hx, hy, hw, hh⟩ := hr
  apply hbox.spans (by rw [abs_le]; omega) (by rw [abs_le]; omega)

/-- The center of a modest rectangle is whole. -/
theorem center (hr : r.IsModestAt x y w h) :
  r.center.IsAt (x + w) (y + h)
  := by
  obtain ⟨hbox, hx, hy, hw, hh⟩ := hr
  apply hbox.center (by rw [abs_le]; omega) (by rw [abs_le]; omega) (by rw [abs_le]; omega)
    (by rw [abs_le]; omega)

/-- A whole point is near a rectangle when it is within forty of it and not strictly inside. -/
theorem hasNear_iff (hr : r.IsModestAt x y w h) (hp : p.IsAt m n) :
  r.HasNear 40.0 p ↔ ((x - 40 ≤ m ∧ m ≤ x + w * 2 + 40) ∧ y - 40 ≤ n ∧ n ≤ y + h * 2 + 40)
    ∧ ¬((x < m ∧ m < x + w * 2) ∧ y < n ∧ n < y + h * 2)
  := by
  have hspans := hr.spans
  obtain ⟨hbox, hx, hy, hw, hh⟩ := hr
  have hgrown : (r.inflate 40.0).Spans (x - 40) (x + w * 2 + 40) (y - 40) (y + h * 2 + 40) :=
    hbox.inflate (isWhole_ofNat (n := 40) (by norm_num)) (by rw [abs_le]; omega)
      (by rw [abs_le]; omega) (by rw [abs_le]; omega) (by rw [abs_le]; omega) (by norm_num)
  rw [HasNear, hgrown.contains_iff hp, hspans.left.lt_iff hp.x, hp.x.lt_iff hspans.right,
    hspans.top.lt_iff hp.y, hp.y.lt_iff hspans.bottom]

end Rect.IsModestAt

/-! ### Anchors on a side -/

/-- The anchor sits on a side of a rectangle, at least twelve behind the first corner of the side and, on
a side that is long enough, in front of the other one. -/
structure Anchor.SitsAt (a : Anchor) (x y w h m n : ℤ) : Prop where
  side : a.side.isSome = true
  point : a.point.IsAt m n
  beside : a.isHorizontal = true →
    (m = x ∨ m = x + w) ∧ y + 12 ≤ n ∧ n ≤ max (y + 12) (y + h - 12)
  above : a.isHorizontal = false →
    (n = y ∨ n = y + h) ∧ x + 12 ≤ m ∧ m ≤ max (x + 12) (x + w - 12)

/-- A whole value is held to an interval with whole ends. -/
theorem Rect.isWhole_held {value low high : Float32} {v a b : ℤ} (hvalue : IsWhole value v)
    (hlow : IsWhole low a) (hhigh : IsWhole high b) :
  IsWhole (Rect.held value low high) (max (min v b) a)
  := (hvalue.lesser hhigh).greater hlow

/-- A projected anchor sits at a whole point of its side. -/
theorem Rect.IsModestAt.exists_sitsAt_projected {r : Rect} {toward : Point} {x y w h p q : ℤ}
    (hr : r.IsModestAt x y w h) (htoward : toward.IsAt p q) (side : Side) :
  ∃ m n, (r.projected side toward Settings.standard.attachment.inset).SitsAt x y (w * 2) (h * 2) m n
  := by
  have hspans := hr.spans
  obtain ⟨-, hx, hy, hw, hh⟩ := hr
  have hacross := isWhole_held htoward.x
    (hspans.left.add isWhole_inset (by rw [abs_le]; omega))
    (hspans.right.sub isWhole_inset (by rw [abs_le]; omega))
  have hdown := isWhole_held htoward.y
    (hspans.top.add isWhole_inset (by rw [abs_le]; omega))
    (hspans.bottom.sub isWhole_inset (by rw [abs_le]; omega))
  cases side with
  | left => exact ⟨_, _, rfl, ⟨hspans.left, hdown⟩, fun _ => ⟨.inl rfl, by omega, by omega⟩, nofun⟩
  | right => exact ⟨_, _, rfl, ⟨hspans.right, hdown⟩, fun _ => ⟨.inr rfl, by omega, by omega⟩, nofun⟩
  | top => exact ⟨_, _, rfl, ⟨hacross, hspans.top⟩, nofun, fun _ => ⟨.inl rfl, by omega, by omega⟩⟩
  | bottom =>
    exact ⟨_, _, rfl, ⟨hacross, hspans.bottom⟩, nofun, fun _ => ⟨.inr rfl, by omega, by omega⟩⟩

theorem Anchor.SitsAt.isModest {a : Anchor} {r : Rect} {x y w h m n : ℤ}
    (ha : a.SitsAt x y (w * 2) (h * 2) m n) (hr : r.IsModestAt x y w h) :
  |m| ≤ 6000000 ∧ |n| ≤ 6000000
  := by
  obtain ⟨-, hx, hy, hw, hh⟩ := hr
  rw [abs_le, abs_le]
  cases hhorizontal : a.isHorizontal with
  | true =>
    obtain ⟨hend, hlow, hhigh⟩ := ha.beside hhorizontal
    omega
  | false =>
    obtain ⟨hend, hlow, hhigh⟩ := ha.above hhorizontal
    omega

/-! ### Moving to a lane -/

namespace Anchor

/-- The anchor moved to a lane, downwards or to the right. -/
def inLane (a : Anchor) (downward : Bool) (offset : Float32) : Anchor :=
  if downward then a.shifted 0.0 offset else a.shifted offset 0.0

/-- The anchor is near the rectangle when it is moved downwards or to the right: it comes no more than
forty off the ends of the rectangle, and unless it slides along its side, not between them. -/
def StaysNear (a : Anchor) (r : Rect) (downward : Bool) (shift : ℤ) : Prop :=
  let place := value (if downward then a.point.y else a.point.x) + shift
  let low := value (if downward then r.y else r.x)
  let high := value (if downward then r.bottom else r.right)
  (low - 40 ≤ place ∧ place ≤ high + 40) ∧ (a.isHorizontal = downward ∨ place ≤ low ∨ high ≤ place)

variable {a : Anchor} {r : Rect} {offset : Float32} {x y w h m n shift : ℤ}

/-- An anchor in a lane is shifted along one axis. -/
theorem isAt_inLane (ha : a.point.IsAt m n) (hm : |m| ≤ 6000000) (hn : |n| ≤ 6000000)
    (hoffset : IsWhole offset shift) (hshift : |shift| ≤ 1000000) (downward : Bool) :
  (a.inLane downward offset).point.IsAt (if downward then m else m + shift)
    (if downward then n + shift else n)
  := by
  rw [abs_le] at hm hn hshift
  have hzero : ∀ {z : Float32} {k : ℤ}, IsWhole z k → |k| ≤ 6000000 → IsWhole (z + 0.0) k := by
    intro z k hz hk
    have hsum := hz.add isWhole_zero (by rw [add_zero]; exact hk.trans (by norm_num))
    rwa [add_zero] at hsum
  cases downward with
  | true =>
    exact ⟨hzero ha.x (abs_le.mpr hm), ha.y.add hoffset (by rw [abs_le]; omega)⟩
  | false =>
    exact ⟨ha.x.add hoffset (by rw [abs_le]; omega), hzero ha.y (abs_le.mpr hn)⟩

theorem side_inLane (a : Anchor) (downward : Bool) (offset : Float32) :
  (a.inLane downward offset).side = a.side
  := by
  cases downward <;> rfl

/-- What staying near a rectangle with whole coordinates means. -/
theorem staysNear_iff (hr : r.IsModestAt x y w h) (ha : a.point.IsAt m n) (downward : Bool) :
  a.StaysNear r downward shift ↔
    if downward then
      (y - 40 ≤ n + shift ∧ n + shift ≤ y + h * 2 + 40)
        ∧ (a.isHorizontal = true ∨ n + shift ≤ y ∨ y + h * 2 ≤ n + shift)
    else
      (x - 40 ≤ m + shift ∧ m + shift ≤ x + w * 2 + 40)
        ∧ (a.isHorizontal = false ∨ m + shift ≤ x ∨ x + w * 2 ≤ m + shift)
  := by
  have hspans := hr.spans
  cases downward with
  | true =>
    simp only [StaysNear, if_true, ha.y.value_eq, hspans.top.value_eq, hspans.bottom.value_eq]
    exact_mod_cast Iff.rfl
  | false =>
    simp only [StaysNear, Bool.false_eq_true, if_false, ha.x.value_eq, hspans.left.value_eq,
      hspans.right.value_eq]
    exact_mod_cast Iff.rfl

/-- An anchor that is moved to a lane is near its rectangle exactly when it stays near it. -/
theorem hasNear_inLane_iff (hr : r.IsModestAt x y w h) (ha : a.SitsAt x y (w * 2) (h * 2) m n)
    (hoffset : IsWhole offset shift) (hshift : |shift| ≤ 1000000) (downward : Bool) :
  r.HasNear 40.0 (a.inLane downward offset).point ↔ a.StaysNear r downward shift
  := by
  obtain ⟨-, hx, hy, hw, hh⟩ := id hr
  -- The anchor sits on an upright side or on a level one, off the corners by the inset.
  have hside : ((m = x ∨ m = x + w * 2) ∧ y + 12 ≤ n ∧ n ≤ max (y + 12) (y + h * 2 - 12)
        ∧ a.isHorizontal = true)
      ∨ ((n = y ∨ n = y + h * 2) ∧ x + 12 ≤ m ∧ m ≤ max (x + 12) (x + w * 2 - 12)
        ∧ a.isHorizontal = false) := by
    cases hhorizontal : a.isHorizontal with
    | true =>
      obtain ⟨hend, hlow, hhigh⟩ := ha.beside hhorizontal
      exact .inl ⟨hend, hlow, hhigh, rfl⟩
    | false =>
      obtain ⟨hend, hlow, hhigh⟩ := ha.above hhorizontal
      exact .inr ⟨hend, hlow, hhigh, rfl⟩
  have hpoint := isAt_inLane ha.point (by rw [abs_le]; omega) (by rw [abs_le]; omega) hoffset hshift
    downward
  rw [hr.hasNear_iff hpoint, staysNear_iff hr ha.point]
  rcases hside with ⟨hend, hlow, hhigh, hhorizontal⟩ | ⟨hend, hlow, hhigh, hhorizontal⟩
  · rw [hhorizontal]
    cases downward with
    | true =>
      simp only [if_true, true_or, and_true]
      omega
    | false =>
      simp only [Bool.false_eq_true, if_false, reduceCtorEq, false_or]
      omega
  · rw [hhorizontal]
    cases downward with
    | true =>
      simp only [if_true, Bool.false_eq_true, false_or]
      omega
    | false =>
      simp only [Bool.false_eq_true, if_false, true_or, and_true]
      omega

/-- In the first four lanes an anchor that slides along its side stays near its rectangle. -/
theorem staysNear_of_slides (hr : r.IsModestAt x y w h) (ha : a.SitsAt x y (w * 2) (h * 2) m n)
    {downward : Bool} (hslides : a.isHorizontal = downward) (hshift : |shift| ≤ 42) :
  a.StaysNear r downward shift
  := by
  obtain ⟨-, hx, hy, hw, hh⟩ := id hr
  rw [abs_le] at hshift
  rw [staysNear_iff hr ha.point]
  cases downward with
  | true =>
    obtain ⟨-, hlow, hhigh⟩ := ha.beside hslides
    simp only [if_true, hslides, true_or, and_true]
    omega
  | false =>
    obtain ⟨-, hlow, hhigh⟩ := ha.above hslides
    simp only [Bool.false_eq_true, if_false, hslides, true_or, and_true]
    omega

end Anchor

/-! ### The edges -/

/-- Whether the middles of the boxes are at least as far apart across as they are down. -/
def Node.liesBeside (source target : Node) : Bool :=
  (target.box.center.x - source.box.center.x).abs ≥ (target.box.center.y - source.box.center.y).abs

/-- The anchors of a transition between two nodes before they are moved to its lane. -/
def Node.anchors (source target : Node) : Attachment :=
  .select source.box target.box Settings.standard.attachment

/-- The edge has two points, and each of its ends is near the box of its node exactly when the anchor
selected there stays near the box in the lane. A lane with a distance of at most 42 keeps anchors near
their boxes that slide along their sides. -/
structure Edge.FollowsLane (e : Edge) (source target : Node) (shift : ℤ) : Prop where
  two_le : 2 ≤ e.points.length
  leaves_iff : (∃ p, e.points.head? = some p ∧ source.box.HasNear 40.0 p)
    ↔ (source.anchors target).start.StaysNear source.box (source.liesBeside target) shift
  arrives_iff : (∃ p, e.points.getLast? = some p ∧ target.box.HasNear 40.0 p)
    ↔ (source.anchors target).finish.StaysNear target.box (source.liesBeside target) shift
  start_slides : (source.anchors target).start.isHorizontal = source.liesBeside target → |shift| ≤ 42 →
    (source.anchors target).start.StaysNear source.box (source.liesBeside target) shift
  finish_slides : (source.anchors target).finish.isHorizontal = source.liesBeside target →
    |shift| ≤ 42 →
    (source.anchors target).finish.StaysNear target.box (source.liesBeside target) shift

namespace StateSettings

variable {d : StateDiagram} {n : Node}

/-- The boxes of states and markers are modest. -/
theorem exists_isModestAt (hd : d.states.size ≤ 20002) (hn : n ∈ (standard.nodes d).values) :
  ∃ x y w h, n.box.IsModestAt x y w h
  := by
  rcases exists_of_mem_nodes hn with hn | rfl | ⟨-, rfl⟩
  · obtain ⟨column, row, hcolumn, hrow, hbox⟩ := exists_cell hd hn
    rw [hbox]
    exact ⟨_, _, 70, 30, isAt_cell hcolumn hrow, by omega, by omega, by omega, by omega⟩
  · exact ⟨_, _, 10, 10, isAt_initialNode, by omega, by omega, by omega, by omega⟩
  · obtain ⟨k, hk, hlow, hhigh, -⟩ := exists_isWhole_finalX hd
    exact ⟨_, _, 12, 12, isAt_finalNode hk (by rw [abs_le]; omega), by omega, by omega, by omega,
      by omega⟩

end StateSettings

namespace StateCanvas

variable {c : StateCanvas} {nodes : Catalog Node} {source target : Node} {shift : ℤ}

/-- The ends of a transition are the anchors of its nodes, shifted into its lane. -/
theorem ends_eq (c : StateCanvas) (source target : Node) :
  c.ends .standard source target =
    ⟨(source.anchors target).start.inLane (source.liesBeside target)
        (c.lanes.offset source.id target.id 12.0 10.0),
      (source.anchors target).finish.inLane (source.liesBeside target)
        (c.lanes.offset source.id target.id 12.0 10.0)⟩
  := by
  simp only [ends, Anchor.inLane, Node.liesBeside, decide_eq_true_eq]
  split_ifs
  all_goals rfl

/-- A transition is drawn from the first anchor in its lane to the other one. -/
theorem draw_arrives (hstub : Connector.HasStub StateSettings.standard.route
    (c.ends .standard source target).finish) (nodes : Catalog Node) (t : Transition) :
  2 ≤ (c.draw .standard nodes t source target).1.points.length
    ∧ (c.draw .standard nodes t source target).1.points.head?
      = some (c.ends .standard source target).start.point
    ∧ (c.draw .standard nodes t source target).1.points.getLast?
      = some (c.ends .standard source target).finish.point
  := Connector.route_arrives _ hasPenalties_standard hstub

/-- A transition between boxes of moderate size follows its lane. -/
theorem followsLane_draw {x y w h x' y' w' h' : ℤ} (hsource : source.box.IsModestAt x y w h)
    (htarget : target.box.IsModestAt x' y' w' h')
    (hoffset : IsWhole (c.lanes.offset source.id target.id 12.0 10.0) shift)
    (hshift : |shift| ≤ 1000000) (t : Transition) :
  (c.draw .standard nodes t source target).1.FollowsLane source target shift
  := by
  obtain ⟨side, side', hselect⟩ := Attachment.exists_select source.box target.box
    Settings.standard.attachment
  obtain ⟨m, n, hstart⟩ := hsource.exists_sitsAt_projected htarget.center side
  obtain ⟨m', n', hfinish⟩ := htarget.exists_sitsAt_projected hsource.center side'
  have hanchors : source.anchors target = .onSides source.box target.box
      Settings.standard.attachment.inset side side' := hselect
  -- Of the anchors that were selected only their places on the sides matter.
  replace hstart : (source.anchors target).start.SitsAt x y (w * 2) (h * 2) m n := hanchors ▸ hstart
  replace hfinish : (source.anchors target).finish.SitsAt x' y' (w' * 2) (h' * 2) m' n' :=
    hanchors ▸ hfinish
  have hstubs : StateSettings.standard.route.HasStubs :=
    RouteSpacing.hasStubs (isWhole_ofNat (n := 12) (by norm_num)) (by norm_num) (by norm_num)
  have hstub : Connector.HasStub StateSettings.standard.route
      (c.ends .standard source target).finish := by
    obtain ⟨hm, hn⟩ := hfinish.isModest htarget
    have hpoint := Anchor.isAt_inLane hfinish.point hm hn hoffset hshift (source.liesBeside target)
    rw [abs_le] at hm hn hshift
    rw [ends_eq]
    apply hstubs.hasStub _ hpoint
    · rw [abs_le]
      split_ifs
      all_goals omega
    · rw [abs_le]
      split_ifs
      all_goals omega
    · rw [Anchor.side_inLane]
      exact hfinish.side
  obtain ⟨hlength, hhead, hend⟩ := draw_arrives hstub nodes t
  rw [ends_eq] at hhead hend
  constructor
  case two_le => exact hlength
  case leaves_iff =>
    rw [← Anchor.hasNear_inLane_iff hsource hstart hoffset hshift]
    simp only [hhead, Option.some.injEq, exists_eq_left']
  case arrives_iff =>
    rw [← Anchor.hasNear_inLane_iff htarget hfinish hoffset hshift]
    simp only [hend, Option.some.injEq, exists_eq_left']
  case start_slides => exact Anchor.staysNear_of_slides hsource hstart
  case finish_slides => exact Anchor.staysNear_of_slides htarget hfinish

end StateCanvas

namespace StateDiagram

variable {d : StateDiagram}

/-- How far the lane of the transition at an index is from its anchors: twelve for the first transition
in a direction and ten more for each further one, on the side of the direction. -/
def laneShift (d : StateDiagram) (i : ℕ) (t : Transition) : ℤ :=
  let past := (d.transitions.take i).map Transition.ends
  Lanes.sideSign past t.sourceId t.targetId * (12 + past.count (t.sourceId, t.targetId) * 10)

/-- In a diagram of moderate size every transition is drawn on some canvas as an edge that follows its
lane. -/
theorem exists_draw_scene (hd : d.states.size ≤ 20002) (htransitions : d.transitions.length ≤ 10001)
    (hbetween : ∀ t ∈ d.transitions, t.link.IsBetween (d.scene .standard).nodes.keys) (i : ℕ)
    (hi : i < d.transitions.length) :
  ∃ (c : StateCanvas) (source target : Node),
    (d.scene .standard).nodes.find? d.transitions[i].sourceId = some source
      ∧ (d.scene .standard).nodes.find? d.transitions[i].targetId = some target
      ∧ (d.scene .standard).edges[i]?
        = some (c.draw .standard (d.scene .standard).nodes d.transitions[i] source target).1
      ∧ (c.draw .standard (d.scene .standard).nodes d.transitions[i] source target).1.FollowsLane source
        target (d.laneShift i d.transitions[i])
  := by
  have hindexed := areIndexed_scene { (default : Model) with state := d } .state .standard
  have hinitial : StateCanvas.initial.lanes = Lanes.after [] := rfl
  obtain ⟨c, source, target, hsource, htarget, hlanes, hdraw⟩ :=
    StateCanvas.exists_draw .standard hindexed hbetween hinitial i hi
  obtain ⟨x, y, w, h, hbox⟩ := StateSettings.exists_isModestAt hd (Catalog.mem_values_of_find? hsource)
  obtain ⟨x', y', w', h', hbox'⟩ := StateSettings.exists_isModestAt hd (Catalog.mem_values_of_find? htarget)
  have hcount : ((d.transitions.take i).map Transition.ends).count
      (d.transitions[i].sourceId, d.transitions[i].targetId) ≤ 10001 := by
    apply List.count_le_length.trans
    rw [List.length_map, List.length_take]
    omega
  have hshift : |d.laneShift i d.transitions[i]| ≤ 1000000 := by
    rw [laneShift, abs_mul, Lanes.abs_sideSign, one_mul, abs_le]
    omega
  have hoffset : IsWhole (c.lanes.offset source.id target.id 12.0 10.0)
      (d.laneShift i d.transitions[i]) := by
    rw [hindexed.id_eq hsource, hindexed.id_eq htarget, hlanes]
    apply Lanes.isWhole_offset (isWhole_ofNat (n := 12) (by norm_num))
      (isWhole_ofNat (n := 10) (by norm_num)) (Nat.le_trans hcount (by norm_num))
    · rw [abs_le]
      omega
    · rw [abs_le]
      omega
  exact ⟨c, source, target, hsource, htarget, hdraw,
    StateCanvas.followsLane_draw hbox hbox' hoffset hshift _⟩

/-- In a diagram of moderate size all transitions follow their lanes. -/
theorem followsLane_scene (hd : d.states.size ≤ 20002) (htransitions : d.transitions.length ≤ 10001)
    (hbetween : ∀ t ∈ d.transitions, t.link.IsBetween (d.scene .standard).nodes.keys) (i : ℕ)
    (hi : i < d.transitions.length) :
  ∃ e source target, (d.scene .standard).edges[i]? = some e ∧ e.link = d.transitions[i].link
    ∧ (d.scene .standard).nodes.find? e.source = some source
    ∧ (d.scene .standard).nodes.find? e.target = some target
    ∧ e.FollowsLane source target (d.laneShift i d.transitions[i])
  := by
  have hindexed := areIndexed_scene { (default : Model) with state := d } .state .standard
  obtain ⟨c, source, target, hsource, htarget, hdraw, hlane⟩ :=
    exists_draw_scene hd htransitions hbetween i hi
  have hsourceId : source.id = d.transitions[i].sourceId := hindexed.id_eq hsource
  have htargetId : target.id = d.transitions[i].targetId := hindexed.id_eq htarget
  refine ⟨_, source, target, hdraw, ?_, ?_, ?_, hlane⟩
  · change Link.mk _ source.id target.id = _
    rw [hsourceId, htargetId, Transition.sourceId_eq, Transition.targetId_eq]
    rfl
  · change (d.scene .standard).nodes.find? source.id = some source
    rw [hsourceId]
    exact hsource
  · change (d.scene .standard).nodes.find? target.id = some target
    rw [htargetId]
    exact htarget

end StateDiagram

namespace Reading

/-- The transitions of a script with at most 10000 line feeds follow their lanes. -/
theorem followsLane_ofText (text : String) (hlines : text.toList.count '\n' ≤ 10000) (i : ℕ)
    (hi : i < (ofText text).model.state.transitions.length) :
  let d := (ofText text).model.state
  ∃ e source target, (d.scene .standard).edges[i]? = some e ∧ e.link = d.transitions[i].link
    ∧ (d.scene .standard).nodes.find? e.source = some source
    ∧ (d.scene .standard).nodes.find? e.target = some target
    ∧ e.FollowsLane source target (d.laneShift i d.transitions[i])
  := by
  have hsize := hasAtMost_ofText text
  apply StateDiagram.followsLane_scene (hsize.states.trans (by omega))
    (hsize.transitions.trans (by omega))
  exact fun t ht => isBetween_ofText .state .standard text t.link (List.mem_map_of_mem ht)

/-- Of a script with at most 10000 line feeds each transition has an edge, and it begins and ends near
the boxes of its nodes exactly when the selected anchors stay near them in its lane. -/
theorem ofText_followsLanes (text : String) (hlines : text.toList.count '\n' ≤ 10000) :
  let d := (ofText text).model.state
  (d.scene .standard).edges.length = d.transitions.length
    ∧ ∀ i (hi : i < d.transitions.length), ∃ e source target,
      (d.scene .standard).edges[i]? = some e ∧ e.link = d.transitions[i].link
        ∧ (d.scene .standard).nodes.find? e.source = some source
        ∧ (d.scene .standard).nodes.find? e.target = some target
        ∧ e.FollowsLane source target (d.laneShift i d.transitions[i])
  := by
  refine ⟨?_, followsLane_ofText text hlines⟩
  apply StateCanvas.length_edges (areIndexed_scene (ofText text).model .state .standard)
  exact fun t ht => isBetween_ofText .state .standard text t.link (List.mem_map_of_mem ht)

/-- A script whose second transition leads from the pseudo state to a state on the right, but farther
below. -/
def slantedScript : String :=
  "[A] -> [B]\n[*] -> [C]"

/-- The transition from the initial marker follows the first lane of its pair. -/
theorem ofText_followsLanes_slantedScript :
  let d := (ofText slantedScript).model.state
  slantedScript.toList.count '\n' ≤ 10000 ∧ (d.scene .standard).edges.length = 2
    ∧ ∃ e source target, (d.scene .standard).edges[1]? = some e
      ∧ e.link = ⟨"state-transition-2", "__start", "C"⟩
      ∧ (d.scene .standard).nodes.find? e.source = some source
      ∧ (d.scene .standard).nodes.find? e.target = some target
      ∧ e.FollowsLane source target 12
  := by
  have hlines : slantedScript.toList.count '\n' ≤ 10000 := by decide +kernel
  obtain ⟨hlength, hfollows⟩ := ofText_followsLanes slantedScript hlines
  obtain ⟨e, source, target, he, hlink, hsource, htarget, hlane⟩ := hfollows 1 (by decide +kernel)
  exact ⟨hlines, hlength.trans (by decide +kernel), e, source, target, he,
    hlink.trans (by decide +kernel), hsource, htarget, hlane⟩

/-- The node of the state on the right. -/
def slantedNode : Node :=
  ⟨"C", "C", .state, ⟨150.0, 290.0, 140.0, 60.0⟩, .leftToRight⟩

/-- The slanted node has a modest box. -/
theorem isModestAt_slantedNode :
  slantedNode.box.IsModestAt 150 290 70 30
  where
  isAt := ⟨isWhole_ofNat (n := 150) (by norm_num), isWhole_ofNat (n := 290) (by norm_num),
    isWhole_ofNat (n := 140) (by norm_num), isWhole_ofNat (n := 60) (by norm_num)⟩
  x_mem := by norm_num
  y_mem := by norm_num
  width_mem := by norm_num
  height_mem := by norm_num

/-- The anchor on the left side of the state is moved to the right, into the box. -/
theorem not_isNear_slantedScript :
  ¬∀ text : String, text.toList.count '\n' ≤ 10000 →
    ∀ e ∈ ((ofText text).model.state.scene .standard).edges,
      e.IsNear ((ofText text).model.state.scene .standard).nodes
  := by
  intro h
  have hlines : slantedScript.toList.count '\n' ≤ 10000 := by decide +kernel
  obtain ⟨e, source, target, he, hlink, hsource, htarget, hlane⟩ :=
    followsLane_ofText slantedScript hlines 1 (by decide +kernel)
  obtain ⟨n, p, hn, hp, hnear⟩ := (h slantedScript hlines e (List.mem_of_getElem? he)).arrives
  have hends : e.link = ⟨"state-transition-2", "__start", "C"⟩ := hlink.trans (by decide +kernel)
  have hinitial : ((ofText slantedScript).model.state.scene .standard).nodes.find? "__start"
      = some StateSettings.standard.initialNode := by decide +kernel
  have hstate : ((ofText slantedScript).model.state.scene .standard).nodes.find? "C"
      = some slantedNode := by decide +kernel
  rw [htarget] at hn
  rw [show e.source = "__start" from congrArg Link.source hends, hinitial] at hsource
  rw [show e.target = "C" from congrArg Link.target hends, hstate] at htarget
  obtain rfl := Option.some.inj hn
  obtain rfl := Option.some.inj hsource
  obtain rfl := Option.some.inj htarget
  have hfinish : (StateSettings.standard.initialNode.anchors slantedNode).finish
      = .onSide 150.0 302.0 .left := by decide +kernel
  have hpoint : (Anchor.onSide 150.0 302.0 .left).point.IsAt 150 302 :=
    ⟨isWhole_ofNat (n := 150) (by norm_num), isWhole_ofNat (n := 302) (by norm_num)⟩
  have hbeside : StateSettings.standard.initialNode.liesBeside slantedNode = false := by
    decide +kernel
  have hstays := hlane.arrives_iff.mp ⟨p, hp, hnear⟩
  rw [hfinish, hbeside, Anchor.staysNear_iff isModestAt_slantedNode hpoint] at hstays
  revert hstays
  decide +kernel

end Reading

end DiagramLayout
