import DiagramLayout.Proofs.Single.Agreement
import DiagramLayout.Scene.Basic

/-!
# The size of a canvas

A canvas reaches as far as the farthest node, whatever the order of the nodes is.
-/

namespace DiagramLayout.Scene

open Single

variable {nodes nodes' : Catalog Node} {n : Node} {value : Rect → Float32} {margin : Float32}

theorem furthest_eq (nodes : Catalog Node) (value : Rect → Float32) (least : Float32) :
  furthest nodes value least = (nodes.values.map fun n => value n.box).foldl greater least
  := by
  rw [furthest, List.foldl_map]

/-- No node reaches farther than the furthest. -/
theorem le_furthest (value : Rect → Float32) (least : Float32) (hn : n ∈ nodes.values)
    (hnumber : IsNumber (value n.box)) :
  value n.box ≤ furthest nodes value least
  := by
  have hmem : value n.box ∈ nodes.values.map fun n => value n.box := List.mem_map_of_mem hn
  rw [furthest_eq]
  apply le_foldl_greater hnumber (List.mem_cons_of_mem least hmem)

theorem least_le_furthest (nodes : Catalog Node) (value : Rect → Float32) {least : Float32}
    (h : IsNumber least) :
  least ≤ furthest nodes value least
  := by
  rw [furthest_eq]
  apply le_foldl_greater h List.mem_cons_self

/-- A margin at every node keeps the node on the canvas. -/
theorem le_furthest_add (least : Float32) (hn : n ∈ nodes.values) (hvalue : 0.0 ≤ value n.box)
    (hmargin : 0.0 ≤ margin) :
  value n.box ≤ furthest nodes (fun box => value box + margin) least
  := by
  have hnumber := (zero_le_iff.mp (nonneg_add hvalue hmargin)).1
  apply Single.le_trans (le_add (infinite_lt_of_nonneg hvalue) hmargin)
  apply le_furthest (fun box => value box + margin) least hn hnumber

/-- A margin around all nodes keeps a node on the canvas. -/
theorem le_furthest_add_margin (least : Float32) (hn : n ∈ nodes.values)
    (hvalue : 0.0 ≤ value n.box) (hmargin : 0.0 ≤ margin) :
  value n.box ≤ furthest nodes value least + margin
  := by
  have hle := le_furthest value least hn (zero_le_iff.mp hvalue).1
  apply Single.le_trans hle
  apply le_add (infinite_lt_of_nonneg (Single.le_trans hvalue hle)) hmargin

/-- How far the nodes reach does not depend on their order, up to the sign of zero. -/
theorem agree_furthest (h : nodes.values.Perm nodes'.values) (value : Rect → Float32)
    (least : Float32) :
  Agree (furthest nodes value least) (furthest nodes' value least)
  := by
  rw [furthest_eq, furthest_eq]
  apply agree_foldl_greater (.of_perm .refl (h.map _))

end DiagramLayout.Scene
