import DiagramLayout.Attachment
import DiagramLayout.Proofs.Single.Greatest

/-!
# Anchors on the border

An anchor of a rectangle stands on its border, at an end of one axis and between the ends of the
other one. A coordinate that is held away from the corners lies between the ends whatever it is held
from, and so does a part of a side, as rounding is monotone.
-/

namespace DiagramLayout

open Single

/-! ### Between the ends of a side -/

namespace Single

variable {x y start length inset ratio low high top : Float32}

/-- Taking away a value that is not negative does not lead above the minuend. -/
theorem sub_le (hx : IsRational x) (hy : IsRational y) (hy' : 0.0 ≤ y) :
  x - y ≤ x
  := by
  obtain ⟨-, hy'⟩ := zero_le_iff.mp hy'
  apply (isNearest_sub hx hy).le hx.isNumber.isNearest
  linarith

/-- A value that is held to an interval lies above the lower end and below every number above both
ends. -/
theorem held_mem (value : Float32) (hlow : low ≤ top) (hhigh : high ≤ top) :
  low ≤ Rect.held value low high ∧ Rect.held value low high ≤ top
  := by
  obtain ⟨hlow', htop, -⟩ := le_iff.mp hlow
  obtain ⟨hhigh', -, hle⟩ := le_iff.mp hhigh
  have hlesser : lesser value high ≤ top := by
    obtain ⟨hnumber, -, hle'⟩ := le_iff.mp (lesser_le value hhigh')
    exact le_of_value hnumber htop (hle'.trans hle)
  constructor
  · exact le_greater _ hlow'
  · rcases greater_eq_or (lesser value high) low with h | h
    · rw [Rect.held, h]
      exact hlesser
    · rw [Rect.held, h]
      exact hlow

/-- A place that is held away from the ends of a side lies on the side. -/
theorem held_mem_side (value : Float32) (hstart : IsRational start) (hlength : IsRational length)
    (hend : IsRational (start + length)) (hinset : 0.0 ≤ inset) (hle : inset ≤ length) :
  start ≤ Rect.held value (start + inset) (start + length - inset)
    ∧ Rect.held value (start + inset) (start + length - inset) ≤ start + length
  := by
  obtain ⟨hinset', hpos⟩ := zero_le_iff.mp hinset
  obtain ⟨-, -, hle'⟩ := le_iff.mp hle
  have hrational : IsRational inset := by
    apply hinset'.isRational
    rw [abs_of_nonneg hpos]
    exact (hle'.trans (le_abs_self _)).trans_lt hlength.abs_value_lt
  have hlow : start + inset ≤ start + length :=
    (isNearest_add hstart hrational).le (isNearest_add hstart hlength) (by linarith)
  obtain ⟨hheld, hheld'⟩ := held_mem value hlow (sub_le hend hrational hinset)
  have hstart' : start ≤ start + inset :=
    hstart.isNumber.isNearest.le (isNearest_add hstart hrational) (by linarith)
  obtain ⟨hnumber, -, hvalue⟩ := le_iff.mp hstart'
  obtain ⟨-, hnumber', hvalue'⟩ := le_iff.mp hheld
  exact ⟨le_of_value hnumber hnumber' (hvalue.trans hvalue'), hheld'⟩

/-- A part of a side is measured from its start to a place on the side. -/
theorem part_mem_side (hstart : IsRational start) (hlength : IsRational length)
    (hlength' : 0.0 ≤ length) (hratio : IsRational ratio) (hpos : 0 ≤ value ratio)
    (hle : value ratio ≤ 1) :
  start ≤ start + length * ratio ∧ start + length * ratio ≤ start + length
  := by
  obtain ⟨-, hlength₀⟩ := zero_le_iff.mp hlength'
  have hproduct := isNearest_mul hlength hratio
  have hlow : 0.0 ≤ length * ratio := by
    apply nonneg_mul hlength hlength' hratio
    exact zero_le_iff.mpr ⟨hratio.isNumber, hpos⟩
  have hhigh : length * ratio ≤ length := by
    apply hproduct.le hlength.isNumber.isNearest
    exact mul_le_of_le_one_right hlength₀ hle
  obtain ⟨hnumber, hlow'⟩ := zero_le_iff.mp hlow
  obtain ⟨-, -, hhigh'⟩ := le_iff.mp hhigh
  have hrational : IsRational (length * ratio) := by
    apply hnumber.isRational
    rw [abs_of_nonneg hlow']
    exact (hhigh'.trans (le_abs_self _)).trans_lt hlength.abs_value_lt
  constructor
  · exact hstart.isNumber.isNearest.le (isNearest_add hstart hrational) (by linarith)
  · exact (isNearest_add hstart hrational).le (isNearest_add hstart hlength) (by linarith)

/-- What lies between two numbers of moderate magnitude is of moderate magnitude. -/
theorem IsWithin.of_le_of_le {k : ℕ} (hlow : Single.IsWithin low k) (hhigh : Single.IsWithin high k)
    (hx : low ≤ x) (hx' : x ≤ high) :
  Single.IsWithin x k
  := by
  obtain ⟨-, hnumber, hle⟩ := le_iff.mp hx
  obtain ⟨-, -, hle'⟩ := le_iff.mp hx'
  have habs : |value x| ≤ max |value low| |value high| := abs_le_max_abs_abs hle hle'
  constructor
  · apply hnumber.isRational
    exact habs.trans_lt (max_lt hlow.isRational.abs_value_lt hhigh.isRational.abs_value_lt)
  · exact habs.trans (max_le hlow.bounded hhigh.bounded)

end Single

/-! ### Anchors -/

namespace Rect

variable {r source target : Rect} {side : Side} {inset ratio : Float32}

/-- The point stands on a side of the rectangle, the corners included. -/
def HasOnBorder (r : Rect) (p : Point) : Prop :=
  (p.x = r.x ∨ p.x = r.right) ∧ (r.y ≤ p.y ∧ p.y ≤ r.bottom)
    ∨ (p.y = r.y ∨ p.y = r.bottom) ∧ (r.x ≤ p.x ∧ p.x ≤ r.right)

/-- The ends of the rectangle are finite and of moderate magnitude, and its sides are at least as long
as some length that is not negative. -/
structure HasRoom (r : Rect) (length : Float32) : Prop where
  x : Single.IsWithin r.x 24
  y : Single.IsWithin r.y 24
  width : IsRational r.width
  height : IsRational r.height
  right : Single.IsWithin r.right 24
  bottom : Single.IsWithin r.bottom 24
  nonneg : 0.0 ≤ length
  le_width : length ≤ r.width
  le_height : length ≤ r.height

/-- The points on the border of a rectangle with room are bounded. -/
theorem HasOnBorder.isWithin {p : Point} (hp : r.HasOnBorder p) (h : r.HasRoom inset) :
  Single.IsWithin p.x 24 ∧ Single.IsWithin p.y 24
  := by
  rcases hp with ⟨hend, hlow, hhigh⟩ | ⟨hend, hlow, hhigh⟩
  · refine ⟨?_, h.y.of_le_of_le h.bottom hlow hhigh⟩
    rcases hend with hend | hend
    · exact hend ▸ h.x
    · exact hend ▸ h.right
  · refine ⟨h.x.of_le_of_le h.right hlow hhigh, ?_⟩
    rcases hend with hend | hend
    · exact hend ▸ h.y
    · exact hend ▸ h.bottom

/-- A projected anchor lies on the border, if the rectangle has room for the inset. -/
theorem hasOnBorder_projected (h : r.HasRoom inset) (side : Side) (toward : Point) :
  r.HasOnBorder (r.projected side toward inset).point
  := by
  have hacross := held_mem_side toward.x h.x.isRational h.width h.right.isRational h.nonneg h.le_width
  have hdown := held_mem_side toward.y h.y.isRational h.height h.bottom.isRational h.nonneg h.le_height
  cases side with
  | left => exact .inl ⟨.inl rfl, hdown⟩
  | right => exact .inl ⟨.inr rfl, hdown⟩
  | top => exact .inr ⟨.inl rfl, hacross⟩
  | bottom => exact .inr ⟨.inr rfl, hacross⟩

/-- The point that divides a side in a ratio between zero and one lies on the border. -/
theorem hasOnBorder_dividing (h : r.HasRoom inset) (side : Side) (hratio : IsRational ratio)
    (hpos : 0 ≤ value ratio) (hle : value ratio ≤ 1) :
  r.HasOnBorder (r.dividing side ratio).point
  := by
  obtain ⟨hinset, hinset'⟩ := zero_le_iff.mp h.nonneg
  have hwidth : 0.0 ≤ r.width :=
    zero_le_iff.mpr ⟨h.width.isNumber, hinset'.trans (le_iff.mp h.le_width).2.2⟩
  have hheight : 0.0 ≤ r.height :=
    zero_le_iff.mpr ⟨h.height.isNumber, hinset'.trans (le_iff.mp h.le_height).2.2⟩
  have hacross := part_mem_side h.x.isRational h.width hwidth hratio hpos hle
  have hdown := part_mem_side h.y.isRational h.height hheight hratio hpos hle
  cases side with
  | left => exact .inl ⟨.inl rfl, hdown⟩
  | right => exact .inl ⟨.inr rfl, hdown⟩
  | top => exact .inr ⟨.inl rfl, hacross⟩
  | bottom => exact .inr ⟨.inr rfl, hacross⟩

end Rect

namespace Attachment

variable {source target : Rect}

/-- The better of two attachments is one of them. -/
theorem exists_better (rules : AttachmentRules) (best : Float32 × Attachment) (a : Attachment) :
  (better rules best a).2 = best.2 ∨ (better rules best a).2 = a
  := by
  unfold better
  split_ifs
  · exact .inr rfl
  · exact .inl rfl

/-- The selected ends stand on two sides, also where no pair of sides has a score. -/
theorem exists_select (source target : Rect) (rules : AttachmentRules) :
  ∃ s t, select source target rules = onSides source target rules.inset s t
  := by
  suffices h : ∀ (list : List Attachment) (best : Float32 × Attachment),
      (∃ s t, best.2 = onSides source target rules.inset s t) →
      (∀ a ∈ list, ∃ s t, a = onSides source target rules.inset s t) →
      ∃ s t, (list.foldl (better rules) best).2 = onSides source target rules.inset s t by
    apply h _ _ ⟨.left, .left, rfl⟩
    intro a ha
    obtain ⟨s, -, ha⟩ := List.mem_flatMap.mp ha
    obtain ⟨t, -, rfl⟩ := List.mem_map.mp ha
    exact ⟨s, t, rfl⟩
  intro list
  induction list with
  | nil => exact fun best hbest _ => hbest
  | cons a list ih =>
    intro best hbest hlist
    apply ih
    · rcases exists_better rules best a with h | h
      · rw [h]
        exact hbest
      · rw [h]
        exact hlist a List.mem_cons_self
    · exact fun b hb => hlist b (List.mem_cons_of_mem a hb)

/-- Both ends sit on a side, at a point of the border of their rectangle. -/
structure IsOnBorders (a : Attachment) (source target : Rect) : Prop where
  start_side : a.start.side.isSome = true
  finish_side : a.finish.side.isSome = true
  start_mem : source.HasOnBorder a.start.point
  finish_mem : target.HasOnBorder a.finish.point

theorem isSome_side_projected (r : Rect) (side : Side) (toward : Point) (inset : Float32) :
  (r.projected side toward inset).side.isSome = true
  := by
  cases side <;> rfl

/-- The selected attachment joins the borders of the two rectangles. -/
theorem isOnBorders_select {rules : AttachmentRules} (hsource : source.HasRoom rules.inset)
    (htarget : target.HasRoom rules.inset) :
  (select source target rules).IsOnBorders source target
  := by
  obtain ⟨s, t, h⟩ := exists_select source target rules
  rw [h]
  exact ⟨isSome_side_projected .., isSome_side_projected .., Rect.hasOnBorder_projected hsource ..,
    Rect.hasOnBorder_projected htarget ..⟩

end Attachment

end DiagramLayout
