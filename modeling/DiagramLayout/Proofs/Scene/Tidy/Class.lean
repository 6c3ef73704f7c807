import DiagramLayout.Proofs.Scene.Class.Nodes
import DiagramLayout.Proofs.Scene.Tidy.Basic

/-!
# Class boxes

In the hierarchy as in the grid, of two classes one stands on the left of the other one or above it.
-/

namespace DiagramLayout

open Single

namespace ClassDiagram

variable {d : ClassDiagram} {g : ℕ} {P Q : String → String → Prop} {places : Places}
  {e f : String × Point} {m n : Node}

/-- Every box of the scene is the box of a class in its place. -/
theorem exists_place (hplaces : d.IsPlacement g P Q (d.places .standard))
    (hn : n ∈ (d.nodes .standard).values) :
  ∃ e ∈ d.places .standard, e.1 = n.id ∧ e.1 ∈ d.classes.keys ∧ n.box = d.boxAt e
  := by
  have hfind := find?_nodes_iff.mpr ⟨hn, rfl⟩
  have hname : n.id ∈ d.classes.keys := mem_keys_nodes.mp (Catalog.exists_find?_iff.mp ⟨n, hfind⟩)
  obtain ⟨m, corner, hm, hcorner, hbox⟩ := exists_node hplaces hname
  rw [hfind, Option.some.injEq] at hm
  exact ⟨_, hcorner, rfl, hname, hm ▸ hbox⟩

/-- A class of a moderate diagram has a height that is not negative. -/
theorem nonneg_height (hd : d.IsModerate) {name : String} (hname : name ∈ d.classes.keys) :
  0.0 ≤ (d.sizeOf .standard name).height
  := (isWhole_height hname hd.members).nonneg (by omega)

/-- No place is above the canvas. -/
theorem IsPlacement.nonneg_y (h : d.IsPlacement g P Q places) (he : e ∈ places) :
  0.0 ≤ e.2.y
  := by
  obtain ⟨-, m, hm, -⟩ := h.nonneg e he
  apply hm.nonneg
  omega

/-- No box ends on the left of the canvas. -/
theorem IsPlacement.nonneg_rightEnd (h : d.IsPlacement g P Q places) (he : e ∈ places)
    (hname : e.1 ∈ d.classes.keys) :
  0.0 ≤ d.rightEnd e
  := nonneg_add (h.nonneg e he).1 (nonneg_width hname)

/-- No box ends above the canvas. -/
theorem IsPlacement.nonneg_lowerEnd (h : d.IsPlacement g P Q places) (hd : d.IsModerate)
    (he : e ∈ places) (hname : e.1 ∈ d.classes.keys) :
  0.0 ≤ d.lowerEnd e
  := nonneg_add (h.nonneg_y he) (nonneg_height hd hname)

/-- A box that stands beside or above another one is apart from it along that axis. -/
theorem Stands.apart (h : d.Stands g P Q e f) (hend : 0.0 ≤ d.lowerEnd e) :
  (d.boxAt e).right ≤ (d.boxAt f).x ∨ (d.boxAt e).bottom ≤ (d.boxAt f).y
  := by
  rcases h with ⟨-, -, hle⟩ | ⟨-, hnumber, hle⟩
  · exact Or.inl hle
  · right
    apply le_iff.mpr ⟨(zero_le_iff.mp hend).1, hnumber, _⟩
    have hgap : (0 : ℚ) ≤ g := by positivity
    exact (le_add_of_nonneg_right hgap).trans hle

/-- The boxes of different classes do not intersect. -/
theorem apart_nodes (hd : d.IsModerate) (hm : m ∈ (d.nodes .standard).values)
    (hn : n ∈ (d.nodes .standard).values) (hne : m.id ≠ n.id) :
  m.box.intersects n.box = false
  := by
  have hplaces := isPlacement_places hd
  obtain ⟨e, he, heid, hename, hebox⟩ := exists_place hplaces hm
  obtain ⟨f, hf, hfid, hfname, hfbox⟩ := exists_place hplaces hn
  rw [← heid, ← hfid] at hne
  rw [hebox, hfbox]
  apply Rect.intersects_eq_false
  rcases hplaces.stands_or he hf hne with h | h
  · exact (h.apart (hplaces.nonneg_lowerEnd hd he hename)).imp Or.inl Or.inl
  · exact (h.apart (hplaces.nonneg_lowerEnd hd hf hfname)).imp Or.inr Or.inr

theorem nonneg_canvasMargin :
  0.0 ≤ ClassSettings.standard.canvasMargin
  := (isWhole_ofNat (n := 120) (by norm_num)).nonneg (by norm_num)

/-- The scene of a moderate class diagram is tidy. -/
theorem isTidy_scene (hd : d.IsModerate) :
  (d.scene .standard).IsTidy
  := by
  constructor
  case apart =>
    apply (Node.areIndexed_catalog _).pairwise_values
    intro m hm n hn
    apply apart_nodes hd hm hn
  case within =>
    intro n hn
    have hplaces := isPlacement_places hd
    obtain ⟨e, he, -, hname, hbox⟩ := exists_place hplaces hn
    have hright : 0.0 ≤ n.box.right := hbox ▸ hplaces.nonneg_rightEnd he hname
    have hbottom : 0.0 ≤ n.box.bottom := hbox ▸ hplaces.nonneg_lowerEnd hd he hname
    refine ⟨?_, ?_, ?_⟩
    · rw [hbox]
      exact ⟨(hplaces.nonneg e he).1, hplaces.nonneg_y he⟩
    · apply Scene.le_furthest_add_margin _ hn hright nonneg_canvasMargin
    · apply Scene.le_furthest_add_margin _ hn hbottom nonneg_canvasMargin

end ClassDiagram

end DiagramLayout
