import DiagramLayout.Proofs.Plane.Border
import DiagramLayout.Proofs.Plane.Overlap
import DiagramLayout.Proofs.Route.Arrival
import DiagramLayout.Proofs.Scene.Edges

/-!
# Attached edges

An edge is attached when it leads from the border of the box of its source to the border of the box of
its target. A connector between two anchors on the borders is drawn as an attached edge, wherever its
way leads.
-/

namespace DiagramLayout

open Single

/-- The edge has at least two points, the first one on the border of the box of its source and the last
one on the border of the box of its target. -/
structure Edge.IsAttached (e : Edge) (nodes : Catalog Node) : Prop where
  two_le : 2 ≤ e.points.length
  leaves : ∃ n p, nodes.find? e.source = some n ∧ e.points.head? = some p ∧ n.box.HasOnBorder p
  arrives : ∃ n p, nodes.find? e.target = some n ∧ e.points.getLast? = some p
    ∧ n.box.HasOnBorder p

/-- All edges of the scene are attached to its nodes. -/
def Scene.IsAttached (s : Scene) : Prop :=
  ∀ e ∈ s.edges, e.IsAttached s.nodes

/-- The stubs of the connectors are seen: their length is finite and at least four. -/
structure RouteSpacing.HasStubs (spacing : RouteSpacing) : Prop where
  length : Single.IsWithin spacing.stubLength 10
  four_le : 4 ≤ value spacing.stubLength

/-- Stubs of whole length are long enough to be seen and short enough to be exact. -/
theorem RouteSpacing.hasStubs {spacing : RouteSpacing} {n : ℤ}
    (h : IsWhole spacing.stubLength n) (hlow : 4 ≤ n) (hhigh : n ≤ 1000) :
  spacing.HasStubs
  := by
  constructor
  · apply h.isWithin
    rw [abs_le]
    omega
  · rw [h.value_eq]
    exact_mod_cast hlow

/-- The stub of an anchor on a side is seen when its place is whole and of moderate size. -/
theorem RouteSpacing.HasStubs.hasStub {spacing : RouteSpacing} {a : Anchor} {m n : ℤ}
    (h : spacing.HasStubs) (hside : a.side.isSome = true) (hpoint : a.point.IsAt m n)
    (hm : |m| ≤ 2 ^ 24) (hn : |n| ≤ 2 ^ 24) :
  Connector.HasStub spacing a
  := ⟨hside, ⟨hpoint.x.isWithin hm, hpoint.y.isWithin hn⟩, h.length, h.four_le⟩

/-- An edge along a connector between two borders is attached. -/
theorem Edge.isAttached_of_route {nodes : Catalog Node} {e : Edge} {c : Connector}
    {inset : Float32} (source target : Node)
    (hsource : nodes.find? e.source = some source) (htarget : nodes.find? e.target = some target)
    (hpoints : e.points = c.route)
    (hends : (Attachment.mk c.start c.finish).IsOnBorders source.box target.box)
    (hroom : target.box.HasRoom inset) (hpenalties : c.tuning.HasPenalties)
    (hstubs : c.spacing.HasStubs) :
  e.IsAttached nodes
  := by
  obtain ⟨hx, hy⟩ := hends.finish_mem.isWithin hroom
  have hstub : Connector.HasStub c.spacing c.finish :=
    ⟨hends.finish_side, ⟨hx, hy⟩, hstubs.length, hstubs.four_le⟩
  obtain ⟨hlength, hhead, hlast⟩ := c.route_arrives hpenalties hstub
  rw [← hpoints] at hlength hhead hlast
  exact ⟨hlength, ⟨source, _, hsource, hhead, hends.start_mem⟩,
    ⟨target, _, htarget, hlast, hends.finish_mem⟩⟩

/-- Rectangles with whole ends have room for anchors if their sides are long enough. -/
theorem Rect.Spans.hasRoom {r : Rect} {inset : Float32} {a b a' b' w h n : ℤ}
    (hr : r.Spans a b a' b') (hwidth : IsWhole r.width w) (hheight : IsWhole r.height h)
    (hinset : IsWhole inset n) (hn : 0 ≤ n) (hw : n ≤ w) (hh : n ≤ h)
    (hab : -2 ^ 24 ≤ a ∧ b ≤ 2 ^ 24) (hab' : -2 ^ 24 ≤ a' ∧ b' ≤ 2 ^ 24) (hle : a ≤ b)
    (hle' : a' ≤ b') :
  r.HasRoom inset
  := by
  constructor
  case x => exact hr.left.isWithin (by rw [abs_le]; omega)
  case y => exact hr.top.isWithin (by rw [abs_le]; omega)
  case width => exact hwidth.isRational
  case height => exact hheight.isRational
  case right => exact hr.right.isWithin (by rw [abs_le]; omega)
  case bottom => exact hr.bottom.isWithin (by rw [abs_le]; omega)
  case nonneg => exact hinset.nonneg hn
  case le_width => exact (hinset.le_iff hwidth).mpr hw
  case le_height => exact (hinset.le_iff hheight).mpr hh

theorem isWhole_inset :
  IsWhole Settings.standard.attachment.inset 12
  := isWhole_ofNat (n := 12) (by norm_num)

theorem hasPenalties_standard :
  Settings.standard.router.HasPenalties
  := by
  decide +kernel

end DiagramLayout
