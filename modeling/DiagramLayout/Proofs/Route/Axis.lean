import DiagramLayout.Proofs.Single.Whole
import DiagramLayout.Route.Lattice

/-!
# Axes of a lattice

Along each axis a lattice has vertices one pitch apart. On an axis that starts at a whole number and
has a whole pitch, all vertices are whole numbers. The numbers stay below nine million, so that no
place is rounded, and a quotient of them is rounded to the right vertex.
-/

namespace DiagramLayout

open Single

/-- An axis of `count` vertices from the integer `s` on, `c` apart, none of them out of reach of
exact arithmetic. -/
structure IsAxis (start pitch : Float32) (count : ℕ) (s c : ℤ) : Prop where
  start : IsWhole start s
  pitch : IsWhole pitch c
  pos : 0 < c
  pitch_le : c ≤ 1000000
  count_pos : 0 < count
  low : -4000000 ≤ s
  high : s + (count - 1) * c ≤ 5000000

namespace IsAxis

variable {start pitch x : Float32} {count i : ℕ} {s c m : ℤ}

theorem mul_bounds (h : IsAxis start pitch count s c) (hi : i < count) :
  0 ≤ (i : ℤ) * c ∧ s + i * c ≤ 5000000 ∧ (i : ℤ) ≤ i * c
  := by
  have hpos := h.pos
  have hhigh := h.high
  have hle : (i : ℤ) * c ≤ (count - 1) * c := by
    apply mul_le_mul_of_nonneg_right _ hpos.le
    omega
  refine ⟨by positivity, by linarith, ?_⟩
  apply le_mul_of_one_le_right
  · omega
  · omega

/-- The vertices of the axis are whole numbers. -/
theorem vertex (h : IsAxis start pitch count s c) (hi : i < count) :
  IsWhole (start + Float32.ofNat i * pitch) (s + i * c)
  := by
  obtain ⟨hnonneg, hhigh, hle⟩ := h.mul_bounds hi
  have hlow := h.low
  have hmul : |(i : ℤ) * c| ≤ 2 ^ 24 := by
    rw [abs_of_nonneg hnonneg]
    linarith
  apply h.start.add ((isWhole_ofNat (by omega)).mul h.pitch hmul)
  rw [abs_le]
  constructor
  · linarith
  · linarith

theorem quotient_of_abs_lt (h : IsAxis start pitch count s c) (hx : IsWhole x m)
    (hdist : |m - s| < 2 ^ 23) :
  IsQuotient ((x - start) / pitch) (m - s) c
  := by
  have hle := h.pitch_le
  apply (hx.sub h.start (hdist.le.trans (by norm_num))).div h.pitch hdist h.pos
  omega

/-- The place of a number along the axis, before it is rounded. -/
theorem quotient (h : IsAxis start pitch count s c) (hx : IsWhole x m) (hm : |m| ≤ 3000000) :
  IsQuotient ((x - start) / pitch) (m - s) c
  := by
  have hlow := h.low
  have hhigh := (h.mul_bounds h.count_pos).2.1
  apply h.quotient_of_abs_lt hx
  rw [abs_le] at hm
  rw [abs_lt]
  omega

/-- A number between the ends of the axis is at most half a pitch away from its nearest vertex. -/
theorem nearestOnAxis (h : IsAxis start pitch count s c) (hx : IsWhole x m) (hm : |m| ≤ 3000000)
    (hlow : s ≤ m) (hhigh : m ≤ s + (count - 1) * c) :
  Lattice.nearestOnAxis x start pitch count < count
    ∧ 2 * |m - (s + Lattice.nearestOnAxis x start pitch count * c)| ≤ c
  := by
  have hpos := h.pos
  have hcount := h.count_pos
  obtain ⟨k, hwhole, hk, hnear⟩ := (h.quotient hx hm).nearest
  have hdist := abs_le.mp (show |m - s - k * c| ≤ c by linarith [abs_nonneg (m - s - k * c)])
  have hfirst : 0 ≤ k := by
    by_contra! hneg
    have hmul : k * c ≤ -1 * c := mul_le_mul_of_nonneg_right (by omega) hpos.le
    rw [abs_of_nonneg (by linarith)] at hnear
    linarith
  have hlast : k ≤ count - 1 := by
    by_contra! hmore
    have hmul : ((count - 1 : ℤ) + 1) * c ≤ k * c :=
      mul_le_mul_of_nonneg_right (by omega) hpos.le
    rw [add_mul, one_mul] at hmul
    rw [abs_of_nonpos (by linarith)] at hnear
    linarith
  have hplace : Lattice.nearestOnAxis x start pitch count = k.toNat := by
    rw [Lattice.nearestOnAxis, hwhole.toInt32 (hk.trans_lt (by norm_num)), min_eq_left hlast,
      max_eq_right hfirst]
  rw [hplace]
  constructor
  · omega
  · rw [Int.toNat_of_nonneg hfirst, ← sub_sub]
    apply hnear

/-- The vertex nearest to a vertex is the vertex itself. -/
theorem nearestOnAxis_vertex (h : IsAxis start pitch count s c) (hi : i < count)
    (hx : IsWhole x (s + i * c)) (hm : |s + i * c| ≤ 3000000) :
  Lattice.nearestOnAxis x start pitch count = i
  := by
  have hpos := h.pos
  obtain ⟨hnonneg, -, -⟩ := h.mul_bounds hi
  have hhigh : s + i * c ≤ s + (count - 1) * c := by
    have hle : (i : ℤ) * c ≤ (count - 1) * c := by
      apply mul_le_mul_of_nonneg_right _ hpos.le
      omega
    linarith
  obtain ⟨-, hnear⟩ := h.nearestOnAxis hx hm (by linarith) hhigh
  generalize Lattice.nearestOnAxis x start pitch count = k at hnear
  rw [add_sub_add_left_eq_sub, ← sub_mul, abs_mul, abs_of_pos hpos, ← mul_assoc] at hnear
  have hlt : 2 * |(i : ℤ) - k| < 2 := by
    apply lt_of_mul_lt_mul_right _ hpos.le
    linarith
  have hzero : (i : ℤ) - k = 0 := by
    apply abs_eq_zero.mp
    have hnonneg' := abs_nonneg ((i : ℤ) - k)
    omega
  omega

/-- Of two numbers a pitch apart, the greater one has its nearest vertex no farther to the front. -/
theorem nearestOnAxis_le (h : IsAxis start pitch count s c) {x' : Float32} {m' : ℤ} (hx : IsWhole x m)
    (hx' : IsWhole x' m') (hs : s ≤ m) (hm : m + c ≤ m') (hm' : m' ≤ 4000000) :
  Lattice.nearestOnAxis x start pitch count ≤ Lattice.nearestOnAxis x' start pitch count
  := by
  have hpos := h.pos
  have hlow := h.low
  have hdist : |m - s| < 2 ^ 23 ∧ |m' - s| < 2 ^ 23 := by
    rw [abs_lt, abs_lt]
    omega
  obtain ⟨k, hk, hkbound, hknear⟩ := (h.quotient_of_abs_lt hx hdist.1).nearest
  obtain ⟨l, hl, hlbound, hlnear⟩ := (h.quotient_of_abs_lt hx' hdist.2).nearest
  have hkl : k ≤ l := by
    have hk' := (abs_le.mp (show |m - s - k * c| ≤ c / 2 by omega)).1
    have hl' := (abs_le.mp (show |m' - s - l * c| ≤ c / 2 by omega)).2
    apply le_of_mul_le_mul_right _ hpos
    omega
  rw [Lattice.nearestOnAxis, Lattice.nearestOnAxis, hk.toInt32 (hkbound.trans_lt (by norm_num)),
    hl.toInt32 (hlbound.trans_lt (by norm_num))]
  omega

/-- The vertices between two numbers are in the range of these numbers. -/
theorem mem_axisRange (h : IsAxis start pitch count s c) {low high : Float32} {a b : ℤ}
    (hlow : IsWhole low a) (hhigh : IsWhole high b) (ha : |a| ≤ 3000000) (hb : |b| ≤ 3000000)
    (hi : i < count) (hai : a ≤ s + i * c) (hib : s + i * c ≤ b) :
  i ∈ Lattice.axisRange low high start pitch count
  := by
  have hpos := h.pos
  obtain ⟨k, hfloor, hk, hkle, -⟩ := (h.quotient hlow ha).floor
  obtain ⟨l, hceil, hl, hlge, -⟩ := (h.quotient hhigh hb).ceil
  have hki : k ≤ i := by
    apply le_of_mul_le_mul_right _ hpos
    linarith
  have hil : (i : ℤ) ≤ l := by
    apply le_of_mul_le_mul_right _ hpos
    linarith
  rw [Lattice.axisRange, hfloor.toInt32 (hk.trans_lt (by norm_num)),
    hceil.toInt32 (hl.trans_lt (by norm_num))]
  apply List.mem_range'_1.mpr
  omega

end IsAxis

/-! ### Laying an axis -/

section Laying

variable {origin low high start pitch : Float32} {count : ℕ} {o a b c s : ℤ}

/-- An axis through `origin` starts at the last vertex that is not behind `low`. -/
theorem exists_isWhole_axisStart (horigin : IsWhole origin o) (hlow : IsWhole low a)
    (hpitch : IsWhole pitch c) (hc : 0 < c) (hc' : c ≤ 1000000) (ha : -3000000 ≤ a) (hao : a ≤ o)
    (ho : o ≤ 4000000) :
  ∃ i : ℕ, IsWhole (Lattice.axisStart origin low pitch) (o - i * c) ∧ o - i * c ≤ a
    ∧ a < o - i * c + c
  := by
  have hdist : |o - a| < 2 ^ 23 := by
    rw [abs_lt]
    omega
  have hquotient : IsQuotient ((origin - low) / pitch) (o - a) c := by
    apply (horigin.sub hlow (hdist.le.trans (by norm_num))).div hpitch hdist hc
    omega
  obtain ⟨k, hk, -, hkle, hklt⟩ := hquotient.ceil
  rw [sub_mul, one_mul] at hklt
  have hkpos : 0 ≤ k := by
    by_contra! hneg
    have hmul : k * c ≤ -1 * c := mul_le_mul_of_nonneg_right (by omega) hc.le
    linarith
  obtain ⟨i, rfl⟩ := Int.eq_ofNat_of_zero_le hkpos
  refine ⟨i, ?_, by linarith, by linarith⟩
  apply horigin.sub (hk.mul hpitch _)
  · rw [abs_le]
    omega
  · rw [abs_le]
    omega

/-- Behind its start an axis has as many vertices as it takes to reach `high`, but at least one. -/
theorem toInt32_axisCount (hstart : IsWhole start s) (hhigh : IsWhole high b)
    (hpitch : IsWhole pitch c) (hc : 0 < c) (hc' : c ≤ 1000000) (hs : -4000000 ≤ s) (hsb : s ≤ b)
    (hb : b ≤ 4000000) :
  ∃ l, toInt32 (Lattice.axisCount start high pitch) = max (l + 1) 2 ∧ 0 ≤ l ∧ b ≤ s + l * c
    ∧ s + l * c < b + c
  := by
  have hdist : |b - s| < 2 ^ 23 := by
    rw [abs_lt]
    omega
  have hquotient : IsQuotient ((high - start) / pitch) (b - s) c := by
    apply (hhigh.sub hstart (hdist.le.trans (by norm_num))).div hpitch hdist hc
    omega
  obtain ⟨l, hl, -, hlle, hllt⟩ := hquotient.ceil
  rw [sub_mul, one_mul] at hllt
  have hnonneg : 0 ≤ l := by
    by_contra! hneg
    have hmul : l * c ≤ -1 * c := mul_le_mul_of_nonneg_right (by omega) hc.le
    linarith
  have hle : l ≤ l * c := le_mul_of_one_le_right hnonneg (by omega)
  have hone : |l + 1| ≤ 2 ^ 24 := by
    rw [abs_le]
    omega
  have hwhole : IsWhole (Lattice.axisCount start high pitch) (max (l + 1) 2) :=
    (hl.add isWhole_one hone).greater isWhole_two
  refine ⟨l, hwhole.toInt32 ?_, hnonneg, by linarith, by linarith⟩
  rw [abs_lt]
  omega

/-- The axis that is laid through `origin` starts at or before `low` and reaches up to `high`. -/
theorem exists_isAxis (hstart : start = Lattice.axisStart origin low pitch)
    (hcount : count = (toInt32 (Lattice.axisCount start high pitch)).toNat)
    (horigin : IsWhole origin o) (hlow : IsWhole low a) (hhigh : IsWhole high b)
    (hpitch : IsWhole pitch c) (hc : 0 < c) (hc' : c ≤ 1000000) (ha : -3000000 ≤ a) (hao : a ≤ o)
    (hob : o ≤ b) (hb : b ≤ 4000000) :
  ∃ (s : ℤ) (i : ℕ), IsAxis start pitch count s c ∧ i < count ∧ o = s + i * c ∧ s ≤ a
    ∧ b ≤ s + (count - 1) * c
  := by
  obtain ⟨i, hwhole, hsa, has⟩ :=
    exists_isWhole_axisStart horigin hlow hpitch hc hc' ha hao (hob.trans hb)
  rw [← hstart] at hwhole
  set s := o - i * c with hs
  obtain ⟨l, htotal, hl, hbl, hlb⟩ := toInt32_axisCount hwhole hhigh hpitch hc hc' (by omega)
    (hsa.trans (hao.trans hob)) hb
  -- There are at least two vertices, even where one would reach.
  have hcount' : (count : ℤ) = max (l + 1) 2 := by omega
  have hil : (i : ℤ) ≤ l := by
    apply le_of_mul_le_mul_right _ hc
    linarith
  have hend : b ≤ s + (count - 1) * c := by
    have hle : l * c ≤ (count - 1) * c := by
      apply mul_le_mul_of_nonneg_right _ hc.le
      omega
    linarith
  refine ⟨s, i, ?_, by omega, by omega, hsa, hend⟩
  constructor
  case start => apply hwhole
  case pitch => apply hpitch
  case pos => apply hc
  case pitch_le => apply hc'
  case count_pos => omega
  case low => omega
  case high =>
    rw [hcount']
    rcases le_or_gt l 1 with hone | hmore
    · rw [max_eq_right (by omega)]
      omega
    · rw [max_eq_left (by omega), add_sub_cancel_right]
      omega

end Laying

end DiagramLayout
