import DiagramLayout.Proofs.Route.Alignment

/-!
# Connectors that arrive

A connector ends exactly at an anchor on a side, when its last stub is long enough to be seen: the end
of the stub, and every point that it may be dropped for, is farther away from the anchor than the
tolerance.
-/

namespace DiagramLayout

open Single
open Float.Model (UnpackedFloat)
open Float.Model.UnpackedFloat

/-! ### Coordinates -/

namespace Single

variable {x y : Float32}

/-- The magnitude of a value is that of its exact value, as long as it is a number. -/
theorem value_abs (h : IsNumber x.abs) :
  IsNumber x ∧ value x.abs = |value x|
  := by
  have habs : x.abs.toModel.unpack
      = unpack .binary32 (pack .binary32 x.toModel.unpack.abs) := rfl
  rcases isNumber_or x with hx | hx
  · refine ⟨hx, ?_⟩
    have ho := hx.isOrdered
    unfold value
    rw [habs]
    generalize x.toModel.unpack = u at ho
    cases ho with
    | finite hu =>
      obtain ⟨hunpack, -, hvalue⟩ := isFinite_abs hu
      rw [hunpack, hvalue]
    | infinity s =>
      have hpack : unpack .binary32 (pack .binary32 (.infinity .positive)) = .infinity .positive :=
        unpack_packedInfinity .positive
      rw [UnpackedFloat.abs, hpack, exactValue_infinity, exactValue_infinity, abs_signed]
      rfl
  · have hnan : x.abs.toModel.unpack = .notANumber := by
      rw [habs, hx]
      rfl
    have ho := h.isOrdered
    rw [hnan] at ho
    cases ho with
    | finite hu => cases hu

/-- What has a finite difference from a finite number is finite. -/
theorem isRational_of_sub (hy : IsRational y) (h : IsRational (x - y)) :
  IsRational x
  := by
  change IsFinite (unpack .binary32 (pack .binary32
    (sub .binary32 x.toModel.unpack y.toModel.unpack))) at h
  unfold IsRational at hy ⊢
  generalize y.toModel.unpack = v at hy h
  rcases isNumber_or x with hx | hx
  · have ho := hx.isOrdered
    generalize x.toModel.unpack = u at ho h
    cases ho with
    | finite hu => apply hu
    | infinity s =>
      have hsub : sub .binary32 (.infinity s) v = .infinity s := by cases hy <;> rfl
      have hpack : unpack .binary32 (pack .binary32 (.infinity s)) = .infinity s :=
        unpack_packedInfinity s
      rw [hsub, hpack] at h
      cases h
  · have hsub : sub .binary32 .notANumber v = .notANumber := by cases hy <;> rfl
    have hpack : unpack .binary32 (pack .binary32 .notANumber) = .notANumber := rfl
    rw [hx, hsub, hpack] at h
    cases h

/-- A number within the tolerance of a finite one is finite and less than one apart from it. -/
theorem abs_sub_lt_one (hy : IsRational y) (h : (x - y).abs ≤ Point.tolerance) :
  IsRational x ∧ |value x - value y| < 1
  := by
  obtain ⟨hnumber, -, hle⟩ := le_iff.mp h
  obtain ⟨hdiff, hvalue⟩ := value_abs hnumber
  have hlt : |value (x - y)| < 1 := by
    rw [← hvalue]
    exact hle.trans_lt value_tolerance.2.2
  have hrational : IsRational (x - y) := hdiff.isRational (hlt.trans (by norm_num))
  have hx : IsRational x := isRational_of_sub hy hrational
  refine ⟨hx, ?_⟩
  by_contra! hfar
  rw [(isNearest_sub hx hy).value_eq_rounded hrational, abs_rounded] at hlt
  have hone := rounded_mono hfar
  rw [← Nat.cast_one, rounded_natCast (by norm_num)] at hone
  push_cast at hone
  linarith

/-- A step of at least four units leads at least two units away, where rounding errs by at most two
units. -/
theorem two_le_abs_sub (hx : Single.IsWithin x 24) (hy : Single.IsWithin y 10)
    (h : 4 ≤ |value y|) :
  2 ≤ |value (x + y) - value x|
  := by
  have hsum := isNearest_add hx.isRational hy.isRational
  have hwithin : Single.IsWithin (x + y) 25 := hx.add (hy.mono (by norm_num)) (by norm_num)
  have hvalue := hsum.value_eq_rounded hwithin.isRational
  have herror := abs_rounded_sub_le_max (value x + value y)
  have hbound : |value x + value y| / 2 ^ 24 ≤ 2 := by
    have hle := abs_add_le (value x) (value y)
    have hx' := hx.bounded
    have hy' := hy.bounded
    rw [div_le_iff₀ (by norm_num)]
    norm_num at hx' hy' ⊢
    linarith
  have hmax : max (|value x + value y| / 2 ^ 24) (2 ^ (-150 : ℤ)) ≤ 2 :=
    max_le hbound (by norm_num)
  rw [hvalue]
  have hsplit : |value y| ≤ |rounded (value x + value y) - value x|
      + |rounded (value x + value y) - (value x + value y)| := by
    calc |value y| = |(rounded (value x + value y) - value x)
          - (rounded (value x + value y) - (value x + value y))| := by ring_nf
      _ ≤ _ := abs_sub _ _
  linarith

/-- A factor of magnitude one leaves the magnitude. -/
theorem abs_value_mul {z : Float32} {i : ℤ} (hz : IsWhole z i) (hi : |i| = 1)
    (hy : Single.IsWithin y 10) :
  Single.IsWithin (z * y) 10 ∧ |value (z * y)| = |value y|
  := by
  have hwithin : Single.IsWithin (z * y) (0 + 10) :=
    (hz.isWithin (k := 0) (by rw [hi]; norm_num)).mul hy (by norm_num)
  rw [zero_add] at hwithin
  refine ⟨hwithin, ?_⟩
  have hvalue :=
    (isNearest_mul hz.isRational hy.isRational).value_eq_rounded hwithin.isRational
  have hi' : |(i : ℚ)| = 1 := by exact_mod_cast hi
  rw [hvalue, abs_rounded, abs_mul, hz.value_eq, hi', one_mul, ← abs_rounded,
    rounded_value hy.isRational.isNumber]

end Single

/-! ### Points that are far apart -/

/-- The coordinates of the points are finite and differ by at least two along one of the axes. -/
structure Point.IsFar (p q : Point) : Prop where
  left : IsRational p.x ∧ IsRational p.y
  right : IsRational q.x ∧ IsRational q.y
  far : 2 ≤ |value p.x - value q.x| ∨ 2 ≤ |value p.y - value q.y|

namespace Point

variable {p q r : Point}

/-- A point that is close to a finite point is finite and nearer than one along each axis. -/
theorem abs_sub_lt_one (hq : IsRational q.x ∧ IsRational q.y) (h : p.isClose q = true) :
  (IsRational p.x ∧ IsRational p.y)
    ∧ |value p.x - value q.x| < 1 ∧ |value p.y - value q.y| < 1
  := by
  obtain ⟨hx, hy⟩ := Bool.and_eq_true_iff.mp h
  obtain ⟨hx, hx'⟩ := Single.abs_sub_lt_one hq.1 (of_decide_eq_true hx)
  obtain ⟨hy, hy'⟩ := Single.abs_sub_lt_one hq.2 (of_decide_eq_true hy)
  exact ⟨⟨hx, hy⟩, hx', hy'⟩

/-- A point is not close to both of two points that are far apart. -/
theorem IsFar.isClose_eq_false (h : p.IsFar q) (hr : r = p ∨ r.isClose p = true) :
  r.isClose q = false
  := by
  apply Bool.eq_false_iff.mpr
  intro hclose
  obtain ⟨-, hx, hy⟩ := abs_sub_lt_one h.right hclose
  rcases hr with rfl | hr
  · rcases h.far with hfar | hfar <;> linarith
  · obtain ⟨-, hx', hy'⟩ := abs_sub_lt_one h.left hr
    rcases h.far with hfar | hfar
    · have hle := abs_sub_le (value p.x) (value r.x) (value q.x)
      rw [abs_sub_comm] at hx'
      linarith
    · have hle := abs_sub_le (value p.y) (value r.y) (value q.y)
      rw [abs_sub_comm] at hy'
      linarith

end Point

/-! ### The last point of a polyline -/

namespace Polyline

variable {p q last : Point} {ps : List Point}

/-- A point that is far from the one before it is kept. -/
theorem dropRepeats_concat (h : (last :: ps).getLast? = some q) (hfar : q.IsFar p) :
  dropRepeats last (ps ++ [p]) = dropRepeats last ps ++ [p]
  := by
  -- The point that is kept last before `p` is `q`, or close to it.
  have hkept : ∀ r, r = q ∨ r.isClose q = true → dropRepeats r [p] = [p] := by
    intro r hr
    rw [dropRepeats, hfar.isClose_eq_false hr]
    rfl
  fun_induction dropRepeats last ps with
  | case1 last =>
    obtain rfl := Option.some.inj h
    exact hkept last (.inl rfl)
  | case2 last r rest hclose ih =>
    rw [List.cons_append, dropRepeats, if_pos hclose]
    cases rest with
    | nil =>
      obtain rfl := Option.some.inj h
      exact hkept last (.inr hclose)
    | cons next others => exact ih h
  | case3 last r rest hclose ih =>
    rw [List.getLast?_cons_cons] at h
    rw [List.cons_append, dropRepeats, if_neg hclose, ih h, List.cons_append]

theorem dropMiddles_ne_nil (h : ps ≠ []) :
  dropMiddles last ps ≠ []
  := by
  fun_induction dropMiddles last ps with
  | case1 last => contradiction
  | case2 last p => exact h
  | case3 last p next rest hrun ih => exact ih (List.cons_ne_nil next rest)
  | case4 last p next rest hrun ih => exact List.cons_ne_nil _ _

/-- A polyline that ends far from the point before its end is simplified to at least two points, of
which the last one is its end. -/
theorem simplify_concat (h : ps.getLast? = some q) (hfar : q.IsFar p) :
  2 ≤ (simplify (ps ++ [p])).length ∧ (simplify (ps ++ [p])).getLast? = some p
  := by
  cases ps with
  | nil => contradiction
  | cons first rest =>
    have hkept : dropRepeats first (rest ++ [p]) = dropRepeats first rest ++ [p] :=
      dropRepeats_concat h hfar
    rw [List.cons_append, simplify, hkept]
    constructor
    · have hne : dropMiddles first (dropRepeats first rest ++ [p]) ≠ [] :=
        dropMiddles_ne_nil (List.concat_ne_nil p (dropRepeats first rest))
      have hpos := List.length_pos_iff.mpr hne
      rw [List.length_cons]
      omega
    · rw [getLast?_dropMiddles, ← List.cons_append, List.getLast?_concat]

end Polyline

/-! ### The last stub -/

namespace Connector

/-- A stub is seen: its length is finite and at least four, and its anchor sits on a side and has
moderate coordinates. -/
structure HasStub (spacing : RouteSpacing) (a : Anchor) : Prop where
  side : a.side.isSome = true
  point : a.point.IsWithin 24
  length : Single.IsWithin spacing.stubLength 10
  four_le : 4 ≤ value spacing.stubLength

/-- The end of a stub that is seen is far from its anchor. -/
theorem HasStub.isFar {spacing : RouteSpacing} {a : Anchor} (h : HasStub spacing a) :
  (stubEnd spacing a).IsFar a.point
  := by
  obtain ⟨side, hside⟩ := Option.isSome_iff_exists.mp h.side
  obtain ⟨i, j, hi, hj, hi', hj', -⟩ := Side.isWhole_normal side
  have hfour : 4 ≤ |value spacing.stubLength| := h.four_le.trans (le_abs_self _)
  have hx : Single.IsWithin (side.normal.x * spacing.stubLength) (0 + 10) :=
    (hi.isWithin hi').mul h.length (by omega)
  have hy : Single.IsWithin (side.normal.y * spacing.stubLength) (0 + 10) :=
    (hj.isWithin hj').mul h.length (by omega)
  have hendx := h.point.x.add (hx.mono (by omega)) (by omega)
  have hendy := h.point.y.add (hy.mono (by omega)) (by omega)
  have haxis : (∃ i, IsWhole side.normal.x i ∧ |i| = 1) ∨ ∃ j, IsWhole side.normal.y j ∧ |j| = 1 := by
    cases side with
    | left => exact .inl ⟨-1, isWhole_one.neg, by norm_num⟩
    | right => exact .inl ⟨1, isWhole_one, by norm_num⟩
    | top => exact .inr ⟨-1, isWhole_one.neg, by norm_num⟩
    | bottom => exact .inr ⟨1, isWhole_one, by norm_num⟩
  rw [stubEnd, hside]
  refine ⟨⟨hendx.isRational, hendy.isRational⟩, ⟨h.point.x.isRational, h.point.y.isRational⟩, ?_⟩
  rcases haxis with ⟨k, hk, hk'⟩ | ⟨k, hk, hk'⟩
  · left
    obtain ⟨hwithin, habs⟩ := abs_value_mul hk hk' h.length
    exact two_le_abs_sub h.point.x hwithin (by rw [habs]; exact hfour)
  · right
    obtain ⟨hwithin, habs⟩ := abs_value_mul hk hk' h.length
    exact two_le_abs_sub h.point.y hwithin (by rw [habs]; exact hfour)

/-! ### Arriving -/

/-- With penalties that are not negative, a connector is its simplified draft. -/
theorem exists_route_eq (c : Connector) (hpenalties : c.tuning.HasPenalties) :
  ∃ stops, c.gridStops? = some stops ∧ c.route = Polyline.simplify (c.draft stops)
  := by
  obtain ⟨stops, hstops⟩ := c.exists_gridStops? hpenalties
  refine ⟨stops, hstops, ?_⟩
  rw [route, route?, hstops]
  rfl

/-- The draft of a connector to an anchor on a side ends with the last stub. -/
theorem exists_draft_concat {c : Connector} (h : c.finish.side.isSome = true)
    (stops : Option (List Point)) :
  ∃ ps, c.draft stops = ps ++ [c.finish.point] ∧ ps.getLast? = some c.routingFinish
  := by
  obtain ⟨ps, hps⟩ := c.exists_middle_concat stops
  refine ⟨c.lead ++ c.middle stops, ?_, ?_⟩
  · rw [draft_eq, trailing, if_pos h]
  · rw [hps, ← List.append_assoc, List.getLast?_concat]

/-- A connector with penalties that are not negative and a last stub that is seen is drawn from its
first anchor to the other one. -/
theorem route_arrives (c : Connector) (hpenalties : c.tuning.HasPenalties)
    (hstub : HasStub c.spacing c.finish) :
  2 ≤ c.route.length ∧ c.route.head? = some c.start.point
    ∧ c.route.getLast? = some c.finish.point
  := by
  obtain ⟨stops, -, hroute⟩ := c.exists_route_eq hpenalties
  obtain ⟨ps, hdraft, hlast⟩ := exists_draft_concat hstub.side stops
  obtain ⟨hlength, hend⟩ := Polyline.simplify_concat hlast hstub.isFar
  rw [← hdraft] at hlength hend
  rw [hroute]
  exact ⟨hlength, by rw [Polyline.head?_simplify, head?_draft], hend⟩

end Connector

end DiagramLayout
