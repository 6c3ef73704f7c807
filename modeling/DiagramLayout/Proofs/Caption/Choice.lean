import DiagramLayout.Proofs.Caption
import DiagramLayout.Proofs.Single.Value
import Mathlib.Data.List.MinMax

/-!
# The choice of a place

The places that are tried for a label lie beside the segments of its path and above and below its middle;
of places that have the same whole coordinates only the first is tried. Where all scores are numbers, the
caption that is chosen is the first of least score.
-/

namespace DiagramLayout.CaptionPlacer

open Single

/-! ### The first item of least score -/

section Least

variable {α : Type} {score : α → Float32} {list : List α} {a : α}

/-- The item has the least score of a list and is the first item that has it. -/
structure IsFirstLeast [DecidableEq α] (score : α → Float32) (list : List α) (a : α) : Prop where
  mem : a ∈ list
  least : ∀ b ∈ list, score a ≤ score b
  first : ∀ b ∈ list, score b ≤ score a → list.idxOf a ≤ list.idxOf b

/-- Keeping the better of two items along a list ends with the first item of least score. -/
theorem foldl_better (a : α) (rest : List α) (h : ∀ b ∈ a :: rest, IsNumber (score b)) :
  ∃ best, (a :: rest).argmin (fun b => value (score b)) = some best
    ∧ rest.foldl (fun best b => if score b < best.1 then (score b, b) else best) (score a, a)
      = (score best, best)
  := by
  induction rest using List.reverseRecOn with
  | nil => exact ⟨a, List.argmin_singleton, rfl⟩
  | append_singleton front b ih =>
    rw [← List.cons_append] at h ⊢
    have hfront : ∀ c ∈ a :: front, IsNumber (score c) := fun c hc => h c (List.mem_append_left _ hc)
    have hb : IsNumber (score b) := h b (List.mem_append_right _ (List.mem_singleton_self b))
    obtain ⟨best, hargmin, hfold⟩ := ih hfront
    have hbest : IsNumber (score best) := hfront best (List.argmin_mem hargmin)
    rw [List.argmin_concat, hargmin, List.foldl_append, hfold, List.foldl_cons, List.foldl_nil]
    dsimp only
    by_cases hless : value (score b) < value (score best)
    · exact ⟨b, if_pos hless, if_pos (lt_of_value hb hbest hless)⟩
    · exact ⟨best, if_neg hless, if_neg fun hlt => hless (lt_iff.mp hlt).2.2⟩

/-- Where all scores are numbers, the item is a minimum of their exact values. -/
theorem leastBy_eq_argmin (h : ∀ b ∈ list, IsNumber (score b)) :
  leastBy score list = list.argmin fun b => value (score b)
  := by
  cases list with
  | nil => rfl
  | cons a rest =>
    obtain ⟨best, hargmin, hfold⟩ := foldl_better a rest h
    rw [hargmin, leastBy, hfold]

/-- Where all scores are numbers, the item is the first one of least score. -/
theorem isFirstLeast_of_leastBy [DecidableEq α] (h : ∀ b ∈ list, IsNumber (score b))
    (hleast : leastBy score list = some a) :
  IsFirstLeast score list a
  := by
  rw [leastBy_eq_argmin h, List.argmin_eq_some_iff] at hleast
  obtain ⟨hmem, hle, hfirst⟩ := hleast
  constructor
  · exact hmem
  · intro b hb
    exact le_of_value (h a hmem) (h b hb) (hle b hb)
  · intro b hb hba
    exact hfirst b hb (le_iff.mp hba).2.2

end Least

/-! ### The captions that are tried -/

/-- Whether places are told apart by their whole coordinates. -/
def isSamePlace (p q : Point) : Bool :=
  gridKey p == gridKey q

/-- The places beside the segments of a path, then the two above and below its middle. -/
def places (rules : CaptionRules) (path : List Point) (middle : Point) : List Point :=
  (segments path).flatMap (fun (p, q) => besideSegment rules p q)
    ++ [middle.offset 0.0 (-rules.fallbackOffset), middle.offset 0.0 rules.fallbackOffset]

/-- The captions that are tried for a label on a path: one around each place that is not the same as one
before it. -/
def trials (rules : CaptionRules) (label : String) (path : List Point) (middle : Point) : List Caption :=
  ((places rules path middle).eraseDupsBy isSamePlace).map fun p => ⟨p, boxAt rules label p⟩

variable {placer : CaptionPlacer} {rules : CaptionRules} {label : String} {path : List Point}
  {nodes : List Rect} {middle : Point}

/-- Of the places that are not seen before, those that repeat one before them are erased. -/
theorem distinct_eq_eraseDupsBy (seen : List (ℤ × ℤ)) (places : List Point) :
  distinct seen places = (places.filter fun p => gridKey p ∉ seen).eraseDupsBy isSamePlace
  := by
  induction places generalizing seen with
  | nil => rfl
  | cons p rest ih =>
    rw [distinct]
    by_cases hseen : gridKey p ∈ seen
    · rw [if_pos hseen, ih, List.filter_cons_of_neg (by simpa using hseen)]
    · rw [if_neg hseen, ih, List.filter_cons_of_pos (by simpa using hseen), List.eraseDupsBy_cons,
        List.filter_filter]
      -- What is behind the place is kept when it is neither seen before nor the same.
      congr 2
      apply List.filter_congr
      intro q _
      rw [isSamePlace, ← Bool.decide_and, decide_eq_decide, beq_eq_false_iff_ne, List.mem_cons, not_or]

/-- The places that are tried are all places without those that repeat one before them. -/
theorem candidates_eq (rules : CaptionRules) (path : List Point) (middle : Point) :
  candidates rules path middle = (places rules path middle).eraseDupsBy isSamePlace
  := by
  rw [candidates, distinct_eq_eraseDupsBy, ← places]
  congr 1
  rw [List.filter_eq_self]
  intro p _
  exact decide_eq_true List.not_mem_nil

theorem mem_of_mem_distinct {p : Point} {seen : List (ℤ × ℤ)} {places : List Point}
    (h : p ∈ distinct seen places) :
  p ∈ places
  := by
  induction places generalizing seen with
  | nil => exact h
  | cons q rest ih =>
    rw [distinct] at h
    split_ifs at h
    · exact List.mem_cons_of_mem _ (ih h)
    · rcases List.mem_cons.mp h with rfl | h
      · exact List.mem_cons_self
      · exact List.mem_cons_of_mem _ (ih h)

/-- Every place that is tried is beside a segment of the path, or above or below its middle. -/
theorem mem_places_of_mem_candidates {p : Point} (h : p ∈ candidates rules path middle) :
  p ∈ places rules path middle
  := mem_of_mem_distinct h

/-- Each caption that is tried stands around a place that is tried. -/
theorem mem_trials {caption : Caption} :
  caption ∈ trials rules label path middle
    ↔ ∃ p ∈ candidates rules path middle, caption = ⟨p, boxAt rules label p⟩
  := by
  rw [trials, ← candidates_eq, List.mem_map]
  simp only [eq_comm]

/-- A label that is not empty gets the first caption of least score on a path that has a segment. -/
theorem choose?_eq_leastBy (hlabel : label ≠ "") (hlength : 2 ≤ path.length)
    (hmiddle : path[path.length / 2]? = some middle) :
  placer.choose? rules label path nodes
    = leastBy (placer.score rules nodes middle) (trials rules label path middle)
  := by
  have hplaced : ¬(label.isEmpty || decide (path.length < 2)) = true := by
    rw [Bool.or_eq_true, String.isEmpty_iff, decide_eq_true_eq, not_or, Nat.not_lt]
    exact ⟨hlabel, hlength⟩
  rw [choose?, if_neg hplaced, hmiddle, trials, ← candidates_eq]

/-- A caption is refused exactly to an empty label and on a path without segments. -/
theorem choose?_eq_none_iff :
  placer.choose? rules label path nodes = none ↔ label = "" ∨ path.length < 2
  := by
  rw [← Option.isSome_eq_false_iff.trans Option.isNone_iff_eq_none, Bool.eq_false_iff, ne_eq,
    isSome_choose?_iff, not_and_or, not_not, Nat.not_le]

end DiagramLayout.CaptionPlacer
