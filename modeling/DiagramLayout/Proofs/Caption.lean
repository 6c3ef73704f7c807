import DiagramLayout.Caption
import Mathlib.Data.List.Basic

/-!
# Places for captions

A label that is not empty gets a place on every path that has a segment, however crowded the
neighbourhood is: the places above and below the middle are always among those that are tried, and one
of all these has the least score.
-/

namespace DiagramLayout.CaptionPlacer

variable {placer : CaptionPlacer} {rules : CaptionRules} {label : String} {path : List Point}
  {nodes : List Rect}

/-- Only an empty list has no item of least score. -/
theorem leastBy_eq_none_iff {α : Type} {score : α → Float32} {list : List α} :
  leastBy score list = none ↔ list = []
  := by
  cases list with
  | nil => exact iff_of_true rfl rfl
  | cons a rest => exact iff_of_false nofun nofun

/-- The first of some places is never a repetition. -/
theorem distinct_ne_nil {places : List Point} (h : places ≠ []) :
  distinct [] places ≠ []
  := by
  obtain ⟨p, rest, rfl⟩ := List.exists_cons_of_ne_nil h
  rw [distinct, if_neg List.not_mem_nil]
  exact List.cons_ne_nil _ _

/-- There is always a place to try. -/
theorem candidates_ne_nil (rules : CaptionRules) (path : List Point) (middle : Point) :
  candidates rules path middle ≠ []
  := by
  apply distinct_ne_nil
  apply List.append_ne_nil_of_right_ne_nil
  exact List.cons_ne_nil _ _

/-- A place is chosen exactly for the labels that are not empty, on the paths that have a segment. -/
theorem isSome_choose?_iff :
  (placer.choose? rules label path nodes).isSome = true ↔ label ≠ "" ∧ 2 ≤ path.length
  := by
  rw [choose?]
  split_ifs with hnone
  · rw [Bool.or_eq_true, String.isEmpty_iff, decide_eq_true_eq] at hnone
    apply iff_of_false nofun
    rintro ⟨hlabel, hlength⟩
    rcases hnone with hempty | hshort
    · exact hlabel hempty
    · omega
  · rw [Bool.or_eq_true, String.isEmpty_iff, decide_eq_true_eq, not_or, Nat.not_lt] at hnone
    refine iff_of_true ?_ hnone
    have hmiddle : path.length / 2 < path.length := by omega
    rw [List.getElem?_eq_getElem hmiddle, Option.isSome_iff_ne_none]
    intro heq
    exact candidates_ne_nil _ _ _ (List.map_eq_nil_iff.mp (leastBy_eq_none_iff.mp heq))

/-- Whether or not it has a place, a label is given the chosen one. -/
theorem fst_place :
  (placer.place rules label path nodes).1 = placer.choose? rules label path nodes
  := by
  rw [place]
  cases placer.choose? rules label path nodes with
  | none => rfl
  | some caption => rfl

end DiagramLayout.CaptionPlacer
