import DiagramLayout.Proofs.Plane.Place
import DiagramLayout.Proofs.Route.Legs

/-!
# Polylines that keep out of a rectangle

A simplified polyline keeps out of a rectangle when the polyline does, as a straight run keeps out
when its pieces do. A diagonal leg between two points away from a rectangle may turn either way.
-/

namespace DiagramLayout

open Single

/-! ### Keeping out -/

/-- The leg between two points with exact coordinates keeps out of a set of places. -/
structure Avoids (s : Set (ℝ × ℝ)) (p q : Point) : Prop where
  left : p.IsExact
  right : q.IsExact
  disjoint : Disjoint (segment ℝ p.place q.place) s

namespace Avoids

variable {s : Set (ℝ × ℝ)} {p q r : Point}

theorem symm (h : Avoids s p q) :
  Avoids s q p
  := by
  constructor
  case left => apply h.right
  case right => apply h.left
  case disjoint =>
    rw [segment_symm]
    apply h.disjoint

/-- A point may be dropped when it is close to the one before. -/
theorem of_isClose (hpq : Avoids s p q) (hqr : Avoids s q r) (h : p.isClose q = true) :
  Avoids s p r
  := by
  obtain ⟨m, n, hp, hm, hn⟩ := hpq.left
  obtain ⟨m', n', hq, hm', hn'⟩ := hpq.right
  simp only [Point.isClose, Bool.and_eq_true, decide_eq_true_eq, abs_sub_le_tolerance hp.x hq.x hm hm',
    abs_sub_le_tolerance hp.y hq.y hn hn'] at h
  obtain ⟨rfl, rfl⟩ := h
  have hplace : p.place = q.place := by rw [hp.place_eq, hq.place_eq]
  constructor
  case left => apply hpq.left
  case right => apply hqr.right
  case disjoint =>
    rw [hplace]
    apply hqr.disjoint

/-- A point may be dropped when it lies on a straight run. -/
theorem of_isStraight (hpq : Avoids s p q) (hqr : Avoids s q r)
    (h : Polyline.isStraight p q r = true) :
  Avoids s p r
  := by
  have hrun : p.place.1 = q.place.1 ∧ q.place.1 = r.place.1
      ∨ p.place.2 = q.place.2 ∧ q.place.2 = r.place.2 := by
    obtain ⟨m, n, hp, hm, hn⟩ := hpq.left
    obtain ⟨m', n', hq, hm', hn'⟩ := hqr.left
    obtain ⟨m'', n'', hr, hm'', hn''⟩ := hqr.right
    simp only [Polyline.isStraight, Bool.or_eq_true, Bool.and_eq_true, decide_eq_true_eq,
      abs_sub_le_tolerance hp.x hq.x hm hm', abs_sub_le_tolerance hp.y hq.y hn hn',
      abs_sub_le_tolerance hq.x hr.x hm' hm'', abs_sub_le_tolerance hq.y hr.y hn' hn''] at h
    rw [hp.place_eq, hq.place_eq, hr.place_eq]
    rcases h with ⟨rfl, rfl⟩ | ⟨rfl, rfl⟩
    · exact Or.inl ⟨rfl, rfl⟩
    · exact Or.inr ⟨rfl, rfl⟩
  constructor
  case left => apply hpq.left
  case right => apply hqr.right
  case disjoint =>
    apply Disjoint.mono_left (segment_subset_union hrun)
    apply Set.disjoint_union_left.mpr ⟨hpq.disjoint, hqr.disjoint⟩

end Avoids

/-- A simplified polyline keeps out of what the polyline keeps out of. -/
theorem Polyline.isChain_avoids_simplify {s : Set (ℝ × ℝ)} {ps : List Point}
    (h : ps.IsChain (Avoids s)) :
  (simplify ps).IsChain (Avoids s)
  := by
  apply isChain_simplify _ _ h
  · intro p q r hclose hpq hqr
    apply hpq.of_isClose hqr hclose
  · intro p q r hrun hpq hqr
    apply hpq.of_isStraight hqr hrun

/-! ### Legs near a rectangle -/

/-- A point with the integers `m` and `n` as coordinates that is more than `d` away from a
rectangle. -/
structure Point.IsClear (p : Point) (d a b w h m n : ℤ) : Prop where
  isAt : p.IsAt m n
  x_le : |m| ≤ 5000000
  y_le : |n| ≤ 5000000
  isBeyond : IsBeyond d a (a + w) b (b + h) m n

section Legs

variable {r : Rect} {p q : Point} {d a b w h m n m' n' : ℤ}

theorem Point.IsClear.isExact (hp : p.IsClear d a b w h m n) :
  p.IsExact
  := by
  exact ⟨m, n, hp.isAt, hp.x_le, hp.y_le⟩

/-- A point outside the padded rectangle is clear of the rectangle. -/
theorem Point.isClear_of_not_contains {padding : Float32}
    (hr : (r.inflate padding).Spans (a - d) (a + w + d) (b - d) (b + h + d)) (hp : p.IsAt m n)
    (hm : |m| ≤ 5000000) (hn : |n| ≤ 5000000) (hout : (r.inflate padding).contains p = false) :
  p.IsClear d a b w h m n
  := by
  exact ⟨hp, hm, hn, isBeyond_of_not_contains hr hp hout⟩

/-- A leg along an axis between two points away from a rectangle. -/
theorem avoids_straight (hr : r.IsAt a b w h) (hd : 0 ≤ d) (hp : p.IsClear d a b w h m n)
    (hq : q.IsClear d a b w h m' n') (hm : |m - m'| ≤ 2 * d) (hn : |n - n'| ≤ 2 * d)
    (h : m = m' ∨ n = n') :
  Avoids r.interior p q
  := by
  have hd' : (0 : ℝ) ≤ d := by exact_mod_cast hd
  have hm' : |(m : ℝ) - m'| ≤ 2 * d := by exact_mod_cast hm
  have hn' : |(n : ℝ) - n'| ≤ 2 * d := by exact_mod_cast hn
  constructor
  case left => apply hp.isExact
  case right => apply hq.isExact
  case disjoint =>
    rw [hr.interior_eq, hp.isAt.place_eq, hq.isAt.place_eq]
    rcases h with rfl | rfl
    · apply disjoint_col hd' hp.isBeyond hq.isBeyond hn'
      left
      rwa [sub_self, abs_zero]
    · apply disjoint_row hd' hp.isBeyond hq.isBeyond hm'
      right
      rwa [sub_self, abs_zero]

/-- Between clear points there is an elbow when they differ along both axes. -/
theorem elbow_eq (hp : p.IsClear d a b w h m n) (hq : q.IsClear d a b w h m' n') (first : Bool) :
  Polyline.elbow p q first = if m' ≠ m ∧ n' ≠ n then
      [if first then ⟨q.x, p.y⟩ else ⟨p.x, q.y⟩]
    else []
  := by
  simp only [Polyline.elbow, Bool.and_eq_true, decide_eq_true_eq,
    tolerance_lt_abs_sub hq.isAt.x hp.isAt.x hq.x_le hp.x_le,
    tolerance_lt_abs_sub hq.isAt.y hp.isAt.y hq.y_le hp.y_le]

/-- A leg between two points away from a rectangle, with its elbow if it is diagonal. -/
theorem isChain_elbow (hr : r.IsAt a b w h) (hd : 0 ≤ d) (hp : p.IsClear d a b w h m n)
    (hq : q.IsClear d a b w h m' n') (hm : |m - m'| ≤ 2 * d) (hn : |n - n'| ≤ 2 * d)
    (hmn : |m - m'| ≤ d ∨ |n - n'| ≤ d) (first : Bool) :
  (p :: (Polyline.elbow p q first ++ [q])).IsChain (Avoids r.interior)
  := by
  have hd' : (0 : ℝ) ≤ d := by exact_mod_cast hd
  have hm' : |(m : ℝ) - m'| ≤ 2 * d := by exact_mod_cast hm
  have hn' : |(n : ℝ) - n'| ≤ 2 * d := by exact_mod_cast hn
  have hmn' : |(m : ℝ) - m'| ≤ d ∨ |(n : ℝ) - n'| ≤ d := by exact_mod_cast hmn
  rw [elbow_eq hp hq]
  split_ifs with hdiff hfirst
  -- The elbow is at the height of the one end and below or above the other.
  · have hk : Point.IsAt ⟨q.x, p.y⟩ m' n := ⟨hq.isAt.x, hp.isAt.y⟩
    have hexact : Point.IsExact ⟨q.x, p.y⟩ := ⟨m', n, hk, hq.x_le, hp.y_le⟩
    simp only [List.singleton_append, List.isChain_cons_cons, List.isChain_singleton, and_true]
    refine ⟨⟨hp.isExact, hexact, ?_⟩, ⟨hexact, hq.isExact, ?_⟩⟩
    · rw [hr.interior_eq, hp.isAt.place_eq, hk.place_eq]
      apply disjoint_row hd' hp.isBeyond hq.isBeyond hm' hmn'
    · rw [hr.interior_eq, hk.place_eq, hq.isAt.place_eq, segment_symm]
      rw [abs_sub_comm (m : ℝ), abs_sub_comm (n : ℝ)] at hmn'
      rw [abs_sub_comm] at hn'
      apply disjoint_col hd' hq.isBeyond hp.isBeyond hn' hmn'
  · have hk : Point.IsAt ⟨p.x, q.y⟩ m n' := ⟨hp.isAt.x, hq.isAt.y⟩
    have hexact : Point.IsExact ⟨p.x, q.y⟩ := ⟨m, n', hk, hp.x_le, hq.y_le⟩
    simp only [List.singleton_append, List.isChain_cons_cons, List.isChain_singleton, and_true]
    refine ⟨⟨hp.isExact, hexact, ?_⟩, ⟨hexact, hq.isExact, ?_⟩⟩
    · rw [hr.interior_eq, hp.isAt.place_eq, hk.place_eq]
      apply disjoint_col hd' hp.isBeyond hq.isBeyond hn' hmn'
    · rw [hr.interior_eq, hk.place_eq, hq.isAt.place_eq, segment_symm]
      rw [abs_sub_comm (m : ℝ), abs_sub_comm (n : ℝ)] at hmn'
      rw [abs_sub_comm] at hm'
      apply disjoint_row hd' hq.isBeyond hp.isBeyond hm' hmn'
  · rw [List.nil_append, List.isChain_cons_cons]
    refine ⟨?_, List.isChain_singleton q⟩
    apply avoids_straight hr hd hp hq hm hn
    omega

end Legs

end DiagramLayout
