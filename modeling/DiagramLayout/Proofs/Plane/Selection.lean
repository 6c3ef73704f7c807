import DiagramLayout.Proofs.Caption.Choice
import DiagramLayout.Proofs.Plane.Border
import Mathlib.Data.Prod.Lex

/-!
# The selection of sides

A connector is attached to two rectangles at the pair of sides that scores least. Rounded scores are often
equal, so it matters which of several such pairs is taken: it is the first one in the order of search, the
sides of the source outermost. The ends keep the inset from the corners of their sides wherever these are
long enough.
-/

namespace DiagramLayout

open Single

/-- The turn at which a side is tried. -/
def Side.turn (s : Side) : ℕ :=
  searchOrder.idxOf s

namespace Rect

variable {r : Rect} {side : Side} {inset : Float32}

/-- The point stands on a side of the rectangle, at least the inset away from both corners. -/
def HasOnSide (r : Rect) (inset : Float32) (side : Side) (p : Point) : Prop :=
  match side with
  | .left => p.x = r.x ∧ r.y + inset ≤ p.y ∧ p.y ≤ r.bottom - inset
  | .right => p.x = r.right ∧ r.y + inset ≤ p.y ∧ p.y ≤ r.bottom - inset
  | .top => p.y = r.y ∧ r.x + inset ≤ p.x ∧ p.x ≤ r.right - inset
  | .bottom => p.y = r.bottom ∧ r.x + inset ≤ p.x ∧ p.x ≤ r.right - inset

/-- The sides of the rectangle are long enough to keep the inset from both corners. -/
structure HasInsets (r : Rect) (inset : Float32) : Prop where
  across : r.x + inset ≤ r.right - inset
  down : r.y + inset ≤ r.bottom - inset

instance (r : Rect) (inset : Float32) : Decidable (r.HasInsets inset) :=
  decidable_of_iff (r.x + inset ≤ r.right - inset ∧ r.y + inset ≤ r.bottom - inset)
    ⟨fun ⟨across, down⟩ => ⟨across, down⟩, fun h => ⟨h.across, h.down⟩⟩

/-- A projected anchor is on the side it was asked for. -/
theorem side_projected (r : Rect) (side : Side) (toward : Point) (inset : Float32) :
  (r.projected side toward inset).side = some side
  := by
  cases side <;> rfl

/-- The point of a projected anchor lies on its side, off the corners by the inset. -/
theorem hasOnSide_projected (h : r.HasInsets inset) (side : Side) (toward : Point) :
  r.HasOnSide inset side (r.projected side toward inset).point
  := by
  have hheld : ∀ {low high : Float32} (value : Float32), low ≤ high →
      low ≤ held value low high ∧ held value low high ≤ high := by
    intro low high value hle
    exact held_mem value hle (Single.le_refl (le_iff.mp hle).2.1)
  cases side with
  | left => exact ⟨rfl, hheld toward.y h.down⟩
  | right => exact ⟨rfl, hheld toward.y h.down⟩
  | top => exact ⟨rfl, hheld toward.x h.across⟩
  | bottom => exact ⟨rfl, hheld toward.x h.across⟩

end Rect

namespace Attachment

variable {source target : Rect} {rules : AttachmentRules} {inset : Float32} {s t s' t' : Side}

/-! ### The order of search -/

/-- The pairs of sides in the order of search. -/
def pairs : List (Side × Side) :=
  Side.searchOrder ×ˢ Side.searchOrder

/-- The candidates are one attachment for each pair of sides, in the order of the pairs. -/
theorem candidates_eq (source target : Rect) (inset : Float32) :
  candidates source target inset = pairs.map fun p => onSides source target inset p.1 p.2
  := rfl

/-- Every pair of sides is tried. -/
theorem mem_pairs (p : Side × Side) :
  p ∈ pairs
  := by
  obtain ⟨s, t⟩ := p
  cases s <;> cases t <;> decide

/-- The ends on different sides are different, as an end tells its side. -/
theorem onSides_injective (source target : Rect) (inset : Float32) :
  Function.Injective fun p : Side × Side => onSides source target inset p.1 p.2
  := by
  intro p q h
  have hstart := congrArg (fun a : Attachment => a.start.side) h
  have hfinish := congrArg (fun a : Attachment => a.finish.side) h
  simp only [onSides, Rect.side_projected, Option.some.injEq] at hstart hfinish
  exact Prod.ext hstart hfinish

theorem idxOf_map {α β : Type} [BEq α] [LawfulBEq α] [BEq β] [LawfulBEq β] {f : α → β}
    (hf : Function.Injective f) (a : α) (list : List α) :
  (list.map f).idxOf (f a) = list.idxOf a
  := by
  induction list with
  | nil => rfl
  | cons b rest ih =>
    rw [List.map_cons, List.idxOf_cons, List.idxOf_cons, ih]
    have hbeq : (f b == f a) = (b == a) := by
      rw [Bool.eq_iff_iff, beq_iff_eq, beq_iff_eq, hf.eq_iff]
    rw [hbeq]

/-- Pairs of sides are tried in the order of their turns, the source's first. -/
theorem turn_le_of_idxOf_le (h : pairs.idxOf (s, t) ≤ pairs.idxOf (s', t')) :
  toLex (s.turn, t.turn) ≤ toLex (s'.turn, t'.turn)
  := by
  revert h
  cases s <;> cases t <;> cases s' <;> cases t' <;> decide

/-! ### The least score -/

/-- The ends that stand on the sides `s` and `t`: no other sides have a less score, and none that come
before them have the same. -/
structure IsSelected (source target : Rect) (rules : AttachmentRules) (s t : Side) (a : Attachment) :
    Prop where
  start_side : a.start.side = some s
  finish_side : a.finish.side = some t
  start_mem : source.HasOnSide rules.inset s a.start.point
  finish_mem : target.HasOnSide rules.inset t a.finish.point
  eq_onSides : a = onSides source target rules.inset s t
  least : ∀ s' t', a.score rules ≤ (onSides source target rules.inset s' t').score rules
  first : ∀ s' t', (onSides source target rules.inset s' t').score rules ≤ a.score rules →
    toLex (s.turn, t.turn) ≤ toLex (s'.turn, t'.turn)

/-- A finite value is less than the score the selection starts from. -/
theorem lt_infinite {x : Float32} (h : x.isFinite = true) :
  x < infinite
  := by
  have hx : IsRational x := isRational_iff.mpr h
  have hnumber : IsNumber infinite := by rfl
  have hinfinite : value infinite = 2 ^ 128 := by rfl
  apply lt_of_value hx.isNumber hnumber
  rw [hinfinite]
  exact (abs_lt.mp hx.abs_value_lt).2

/-- The ends that are selected are the first of least score among all candidates. -/
theorem isFirstLeast_select
    (h : ∀ a ∈ candidates source target rules.inset, (a.score rules).isFinite = true) :
  CaptionPlacer.IsFirstLeast (score rules) (candidates source target rules.inset)
    (select source target rules)
  := by
  obtain ⟨first, rest, hcandidates⟩ : ∃ first rest,
      candidates source target rules.inset = first :: rest := ⟨_, _, rfl⟩
  have hnumber : ∀ a ∈ candidates source target rules.inset, IsNumber (a.score rules) :=
    fun a ha => (isRational_iff.mpr (h a ha)).isNumber
  apply CaptionPlacer.isFirstLeast_of_leastBy hnumber
  rw [select, hcandidates]
  -- The first candidate is better than the infinite score from which the search starts.
  have hless := lt_infinite (h first (hcandidates ▸ List.mem_cons_self))
  rw [List.foldl_cons, better, if_pos hless]
  rfl

/-- Between rectangles whose sides are long enough for the insets, the ends that are selected keep the
inset from the corners of their sides and are the first of least score in the order of search, as long as
all scores are finite. -/
theorem isSelected_select (hsource : source.HasInsets rules.inset)
    (htarget : target.HasInsets rules.inset)
    (hscores : ∀ a ∈ candidates source target rules.inset, (a.score rules).isFinite = true) :
  ∃ s t, IsSelected source target rules s t (select source target rules)
  := by
  have hmem : ∀ s t, onSides source target rules.inset s t ∈ candidates source target rules.inset := by
    intro s t
    rw [candidates_eq]
    exact List.mem_map_of_mem (mem_pairs (s, t))
  have hleast := isFirstLeast_select hscores
  obtain ⟨s, t, hselect⟩ := exists_select source target rules
  refine ⟨s, t, ?_⟩
  rw [hselect] at hleast ⊢
  constructor
  case start_side => apply Rect.side_projected
  case finish_side => apply Rect.side_projected
  case start_mem => exact Rect.hasOnSide_projected hsource s _
  case finish_mem => exact Rect.hasOnSide_projected htarget t _
  case eq_onSides => rfl
  case least => exact fun s' t' => hleast.least _ (hmem s' t')
  case first =>
    intro s' t' hle
    have hindex := hleast.first _ (hmem s' t') hle
    rw [candidates_eq, idxOf_map (onSides_injective _ _ _) (s, t),
      idxOf_map (onSides_injective _ _ _) (s', t')] at hindex
    exact turn_le_of_idxOf_le hindex

/-- The boxes of diagonal neighbours: four pairs of sides are equally far from each other. -/
def diagonal : Rect × Rect :=
  (⟨0.0, 0.0, 100.0, 100.0⟩, ⟨300.0, 300.0, 100.0, 100.0⟩)

/-- Two boxes set diagonally meet the hypotheses, and one of their candidates is selected. -/
theorem isSelected_diagonal :
  (diagonal.1.HasInsets 12.0 ∧ diagonal.2.HasInsets 12.0
      ∧ ∀ a ∈ candidates diagonal.1 diagonal.2 12.0, (a.score {}).isFinite = true)
    ∧ ∃ s t, IsSelected diagonal.1 diagonal.2 {} s t (select diagonal.1 diagonal.2 {})
  := by
  have h : diagonal.1.HasInsets 12.0 ∧ diagonal.2.HasInsets 12.0
      ∧ ∀ a ∈ candidates diagonal.1 diagonal.2 12.0, (a.score {}).isFinite = true := by
    decide +kernel
  exact ⟨h, isSelected_select h.1 h.2.1 h.2.2⟩

/-- Of the four, the pair of the right and the left side comes first. -/
example : pairs.filter (fun p => (onSides diagonal.1 diagonal.2 12.0 p.1 p.2).score {} ≤ 424.0)
      = [(.right, .left), (.right, .top), (.bottom, .left), (.bottom, .top)]
    ∧ select diagonal.1 diagonal.2 {} = onSides diagonal.1 diagonal.2 12.0 .right .left := by
  decide +kernel

end Attachment

end DiagramLayout
