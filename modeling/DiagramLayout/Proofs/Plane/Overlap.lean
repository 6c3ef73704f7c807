import DiagramLayout.Proofs.Plane.Place

/-!
# Rectangles that do not overlap

Two rectangles do not intersect when one of them ends, along one axis, where the other one begins or
before.
-/

namespace DiagramLayout

open Single

namespace Rect

variable {r s : Rect} {a b w h a' b' w' h' : ℤ}

/-- Rectangles that are apart along one axis do not intersect. -/
theorem intersects_eq_false
    (h : (r.right ≤ s.x ∨ s.right ≤ r.x) ∨ r.bottom ≤ s.y ∨ s.bottom ≤ r.y) :
  r.intersects s = false
  := by
  have hnot : ∀ {x y : Float32}, x ≤ y → ¬y < x := by
    intro x y hle hlt
    apply absurd (le_iff.mp hle).2.2 (lt_iff.mp hlt).2.2.not_ge
  rw [Bool.eq_false_iff, intersects]
  simp only [Ne, Bool.and_eq_true, decide_eq_true_eq]
  rintro ⟨⟨⟨hleft, hright⟩, htop⟩, hbottom⟩
  rcases h with (h | h) | h | h
  · apply hnot h hright
  · apply hnot h hleft
  · apply hnot h hbottom
  · apply hnot h htop

/-- The corners of the rectangle are small enough for exact sums. -/
theorem IsAt.spans (hr : r.IsAt a b w h) (ha : |a + w| ≤ 2 ^ 24) (hb : |b + h| ≤ 2 ^ 24) :
  r.Spans a (a + w) b (b + h)
  := ⟨hr.x, hr.x.add hr.width ha, hr.y, hr.y.add hr.height hb⟩

/-- On whole coordinates it is enough that the bounds are apart along one axis. -/
theorem Spans.intersects_eq_false (hr : r.Spans a b w h) (hs : s.Spans a' b' w' h')
    (hapart : (b ≤ a' ∨ b' ≤ a) ∨ h ≤ w' ∨ h' ≤ w) :
  r.intersects s = false
  := by
  apply Rect.intersects_eq_false
  rw [hr.right.le_iff hs.left, hs.right.le_iff hr.left, hr.bottom.le_iff hs.top,
    hs.bottom.le_iff hr.top]
  exact hapart

end Rect

end DiagramLayout
