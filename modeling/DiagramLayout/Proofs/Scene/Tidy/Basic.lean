import DiagramLayout.Proofs.Plane.Overlap
import DiagramLayout.Proofs.Scene.Canvas
import DiagramLayout.Proofs.Scene.Edges

/-!
# Tidy scenes

In a tidy scene no two nodes overlap and no node leaves the canvas. Nodes have distinct ids, so that
it is enough to compare nodes with different ones.
-/

namespace DiagramLayout

open Single

/-- The rectangle lies on a canvas of the given size. -/
def Rect.IsWithin (r : Rect) (width height : Float32) : Prop :=
  (0.0 ≤ r.x ∧ 0.0 ≤ r.y) ∧ r.right ≤ width ∧ r.bottom ≤ height

/-- No two nodes of the scene overlap, and all of them lie on the canvas. -/
structure Scene.IsTidy (s : Scene) : Prop where
  apart : s.nodes.values.Pairwise fun m n => m.box.intersects n.box = false
  within : ∀ n ∈ s.nodes.values, n.box.IsWithin s.width s.height

/-! ### Nodes -/

section Nodes

variable {nodes : Catalog Node} {list : List Node} {n : Node}

theorem Node.mem_of_mem_catalog (h : n ∈ (Node.catalog list).values) :
  n ∈ list
  := by
  obtain ⟨e, he, rfl⟩ := List.mem_map.mp h
  refine Catalog.forall_entries_ofList (P := fun _ n => n ∈ list) ?_ e he
  intro e he
  obtain ⟨n, hn, rfl⟩ := List.mem_map.mp he
  exact hn

/-- Nodes keep apart if any two nodes with different ids do. -/
theorem Node.AreIndexed.pairwise_values {P : Node → Node → Prop} (h : Node.AreIndexed nodes)
    (hapart : ∀ m ∈ nodes.values, ∀ n ∈ nodes.values, m.id ≠ n.id → P m n) :
  nodes.values.Pairwise P
  := by
  have hids : nodes.values.map Node.id = nodes.keys := by
    rw [Catalog.values, List.map_map, Catalog.keys]
    apply List.map_congr_left
    apply h
  have hnodup : (nodes.values.map Node.id).Nodup := hids ▸ nodes.nodup
  apply (List.pairwise_map.mp hnodup).imp_of_mem
  intro m n hm hn
  apply hapart m hm n hn

end Nodes

/-! ### Boxes -/

theorem Rect.Spans.isWithin {r : Rect} {a b a' b' : ℤ} {width height : Float32}
    (h : r.Spans a b a' b') (ha : 0 ≤ a) (ha' : 0 ≤ a') (hright : r.right ≤ width)
    (hbottom : r.bottom ≤ height) :
  r.IsWithin width height
  := ⟨⟨h.left.nonneg ha, h.top.nonneg ha'⟩, hright, hbottom⟩

/-- A box around a middle with whole coordinates, whose width and height are even. -/
theorem Rect.spans_centred {x y width height : Float32} {a b m n : ℤ} (hx : IsWhole x a)
    (hy : IsWhole y b) (hwidth : IsWhole width (m * 2)) (hheight : IsWhole height (n * 2))
    (ha : |a| ≤ 8000000) (hb : |b| ≤ 8000000) (hm : |m| ≤ 1000) (hn : |n| ≤ 1000) :
  (Rect.mk (x - width / 2.0) (y - height / 2.0) width height).Spans (a - m) (a - m + m * 2) (b - n)
    (b - n + n * 2)
  := by
  rw [abs_le] at ha hb hm hn
  have hbox : (Rect.mk (x - width / 2.0) (y - height / 2.0) width height).IsAt (a - m) (b - n) (m * 2)
      (n * 2) := by
    constructor
    case x => apply hx.sub (hwidth.half (by rw [abs_lt]; omega)) (by rw [abs_le]; omega)
    case y => apply hy.sub (hheight.half (by rw [abs_lt]; omega)) (by rw [abs_le]; omega)
    case width => exact hwidth
    case height => exact hheight
  apply hbox.spans (by rw [abs_le]; omega) (by rw [abs_le]; omega)

/-- The middle of a box with even sides. -/
theorem Rect.IsAt.center {r : Rect} {x y w h : ℤ} (hr : r.IsAt x y (w * 2) (h * 2))
    (hx : |x| ≤ 8000000) (hy : |y| ≤ 8000000) (hw : |w| ≤ 1000) (hh : |h| ≤ 1000) :
  r.center.IsAt (x + w) (y + h)
  := by
  rw [abs_le] at hx hy hw hh
  constructor
  case x => apply hr.x.add (hr.width.half (by rw [abs_lt]; omega)) (by rw [abs_le]; omega)
  case y => apply hr.y.add (hr.height.half (by rw [abs_lt]; omega)) (by rw [abs_le]; omega)

/-- A square around a point with whole coordinates. -/
theorem Rect.isAt_around {p : Point} {radius : Float32} {a b r : ℤ} (hp : p.IsAt a b)
    (hradius : IsWhole radius r) (ha : |a| ≤ 8000000) (hb : |b| ≤ 8000000) (hr : |r| ≤ 1000) :
  (Rect.around p radius).IsAt (a - r) (b - r) (r * 2) (r * 2)
  := by
  rw [abs_le] at ha hb hr
  have hside : IsWhole (radius * 2.0) (r * 2) := hradius.mul isWhole_two (by rw [abs_le]; omega)
  constructor
  case x => apply hp.x.sub hradius (by rw [abs_le]; omega)
  case y => apply hp.y.sub hradius (by rw [abs_le]; omega)
  case width => exact hside
  case height => exact hside

end DiagramLayout
