import DiagramLayout.Proofs.Single.Whole
import DiagramLayout.Text.Extent

/-!
# Shortened texts

A text is shortened to the width of its place, when an ellipsis alone has room there, and a text
that fits is not shortened. Of a text that does not fit, the longest start is kept that fits with an
ellipsis behind it; a shorter start may be wider, since advances may be negative, so each longer one
has been tried.
-/

namespace DiagramLayout

open Single

namespace CharWidths

variable {w : CharWidths} {limit : Float32} {text : String}

/-- A text that is narrow enough is kept as it is. -/
theorem fit_of_le (h : w.widthOf text ≤ limit) :
  w.fit limit text = text
  := if_pos h

/-- A shortened text is within the limit, when the ellipsis alone is. -/
theorem width_shorten_le (h : w.width ellipsis ≤ limit) (cs : List Char) (n : ℕ) :
  w.width (w.shorten limit cs n) ≤ limit
  := by
  induction n with
  | zero => exact h
  | succ n ih =>
    rw [shorten]
    split_ifs with hfits
    · exact hfits
    · exact ih

/-- A fitted text is within the limit, when the ellipsis alone is. -/
theorem widthOf_fit_le (h : w.width ellipsis ≤ limit) (text : String) :
  w.widthOf (w.fit limit text) ≤ limit
  := by
  rw [fit]
  split_ifs with hfits
  · exact hfits
  · rw [widthOf, String.toList_ofList]
    apply width_shorten_le h

/-- A text is no narrower than nothing, when no character is. -/
theorem nonneg_widthOf (h : ∀ c, 0.0 ≤ w.advance c) (text : String) :
  0.0 ≤ w.widthOf text
  := by
  apply List.foldlRecOn text.toList
  · apply isWhole_zero.neg.nonneg le_rfl
  · intro sum hsum c _
    apply nonneg_add hsum (h c)

/-! ### The longest start that fits -/

/-- A proper start of the text that fits with an ellipsis behind it. -/
structure FitsShortened (w : CharWidths) (limit : Float32) (cs start : List Char) : Prop where
  isPrefix : start <+: cs
  ne : start ≠ cs
  le : w.width (start ++ ellipsis) ≤ limit

/-- What a text is fitted to: itself when it fits, otherwise the longest of its proper starts that fit
with an ellipsis behind them, that ellipsis included, or the ellipsis alone when there is none. -/
inductive IsFitted (w : CharWidths) (limit : Float32) (cs : List Char) : List Char → Prop
  | whole (h : w.width cs ≤ limit) : IsFitted w limit cs cs
  | shortened {start : List Char} (h : ¬w.width cs ≤ limit) (hstart : w.FitsShortened limit cs start)
      (hlongest : ∀ other, w.FitsShortened limit cs other → other.length ≤ start.length) :
      IsFitted w limit cs (start ++ ellipsis)
  | bare (h : ¬w.width cs ≤ limit) (hnone : ∀ start, ¬w.FitsShortened limit cs start) :
      IsFitted w limit cs ellipsis

variable {cs start other : List Char}

/-- Shortening gives up at least one character. -/
theorem FitsShortened.length_lt (h : w.FitsShortened limit cs start) :
  start.length < cs.length
  := by
  apply lt_of_le_of_ne h.isPrefix.length_le
  intro hlength
  apply h.ne (h.isPrefix.eq_of_length hlength)

/-- There is one start of each length. -/
theorem FitsShortened.eq_of_length (h : w.FitsShortened limit cs start)
    (h' : w.FitsShortened limit cs other) (hlength : start.length = other.length) :
  start = other
  := (List.prefix_of_prefix_length_le h.isPrefix h'.isPrefix hlength.le).eq_of_length hlength

/-- A text has at most one fitted form. -/
theorem IsFitted.unique {result result' : List Char} (h : w.IsFitted limit cs result)
    (h' : w.IsFitted limit cs result') :
  result = result'
  := by
  cases h with
  | whole hfits => cases h' with
    | whole => rfl
    | shortened hnot => exact absurd hfits hnot
    | bare hnot => exact absurd hfits hnot
  | shortened hnot hstart hlongest => cases h' with
    | whole hfits => exact absurd hfits hnot
    | shortened _ hstart' hlongest' =>
      have hlength := le_antisymm (hlongest' _ hstart) (hlongest _ hstart')
      rw [hstart.eq_of_length hstart' hlength]
    | bare _ hnone => exact absurd hstart (hnone _)
  | bare hnot hnone => cases h' with
    | whole hfits => exact absurd hfits hnot
    | shortened _ hstart' => exact absurd hstart' (hnone _)
    | bare => rfl

/-- When no start with more than `n` characters fits, the search from `n` characters downwards finds the
longest one that does. -/
theorem isFitted_shorten (h : ¬w.width cs ≤ limit) {n : ℕ} (hn : n ≤ cs.length - 1)
    (hlonger : ∀ start, w.FitsShortened limit cs start → start.length ≤ n) :
  w.IsFitted limit cs (w.shorten limit cs n)
  := by
  induction n with
  | zero =>
    by_cases hempty : w.FitsShortened limit cs []
    · exact .shortened h hempty hlonger
    · apply IsFitted.bare h
      intro start hstart
      obtain rfl := List.eq_nil_of_length_eq_zero (Nat.le_zero.mp (hlonger start hstart))
      exact hempty hstart
  | succ n ih =>
    have hlength : (cs.take (n + 1)).length = n + 1 := List.length_take_of_le (by omega)
    rw [shorten]
    split_ifs with hfits
    · refine .shortened h ⟨List.take_prefix _ _, ?_, hfits⟩ (hlength.symm ▸ hlonger)
      intro hwhole
      rw [hwhole] at hlength
      omega
    · apply ih (by omega)
      intro start hstart
      apply Nat.le_of_lt_succ
      apply lt_of_le_of_ne (hlonger start hstart)
      intro heq
      apply hfits
      rw [← heq, ← List.prefix_iff_eq_take.mp hstart.isPrefix]
      exact hstart.le

/-- Fitting gives the text itself or its longest proper start that fits, and nothing else. -/
theorem fit_eq_iff {result : String} :
  w.fit limit text = result ↔ w.IsFitted limit text.toList result.toList
  := by
  have hfitted : w.IsFitted limit text.toList (w.fit limit text).toList := by
    rw [fit]
    split_ifs with hfits
    · exact .whole hfits
    · rw [String.toList_ofList]
      apply isFitted_shorten hfits le_rfl
      intro start hstart
      exact Nat.le_sub_one_of_lt hstart.length_lt
  constructor
  · rintro rfl
    exact hfitted
  · intro h
    exact String.toList_inj.mp (hfitted.unique h)

/-- Where not even the ellipsis fits, it is all that is left. -/
example : ({} : CharWidths).fit 1.0 "abc" = "..." := by
  decide +kernel

end CharWidths

end DiagramLayout
