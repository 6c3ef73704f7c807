import DiagramLayout.Script.Line
import Mathlib.Data.List.Basic
import Mathlib.Data.List.Infix

/-!
# Texts and their lines

`unlines` is the inverse of `lines` on lists of lines that have no line feed in them, of which there
is at least one. A line in which no comment begins is in normal form but for the blanks around it.
-/

namespace DiagramLayout.Script

variable {line : List Char} {ls : List (List Char)}

theorem lines_ne_nil (cs : List Char) :
  lines cs ≠ []
  := by
  fun_cases lines cs
  all_goals apply List.cons_ne_nil

/-- A character that is no line feed stands at the start of the first line. -/
theorem exists_lines_cons {c : Char} (hc : c ≠ '\n') (rest : List Char) :
  ∃ first others, lines rest = first :: others ∧ lines (c :: rest) = (c :: first) :: others
  := by
  obtain ⟨first, others, hrest⟩ := List.exists_cons_of_ne_nil (lines_ne_nil rest)
  refine ⟨first, others, hrest, ?_⟩
  rw [lines.eq_3 c rest hc, hrest]

/-- No line has a line feed in it. -/
theorem not_mem_of_mem_lines {cs : List Char} (h : line ∈ lines cs) :
  '\n' ∉ line
  := by
  induction cs generalizing line with
  | nil =>
    obtain rfl := List.mem_singleton.mp h
    apply List.not_mem_nil
  | cons c rest ih =>
    by_cases hc : c = '\n'
    · rw [hc, lines, List.mem_cons] at h
      rcases h with rfl | h
      · apply List.not_mem_nil
      · apply ih h
    · obtain ⟨first, others, hrest, hlines⟩ := exists_lines_cons hc rest
      rw [hlines, List.mem_cons] at h
      rcases h with rfl | h
      · apply List.not_mem_cons_of_ne_of_not_mem (Ne.symm hc)
        apply ih
        rw [hrest]
        apply List.mem_cons_self
      · apply ih
        rw [hrest]
        apply List.mem_cons_of_mem first h

/-- A text without line feeds is one line. -/
theorem lines_of_not_mem (h : '\n' ∉ line) :
  lines line = [line]
  := by
  induction line with
  | nil => rfl
  | cons c rest ih =>
    rw [List.mem_cons, not_or] at h
    rw [lines.eq_3 c rest (Ne.symm h.1), ih h.2]

/-- The first line ends in front of the first line feed. -/
theorem lines_append_cons (h : '\n' ∉ line) (rest : List Char) :
  lines (line ++ '\n' :: rest) = line :: lines rest
  := by
  induction line with
  | nil => rfl
  | cons c front ih =>
    rw [List.mem_cons, not_or] at h
    rw [List.cons_append, lines.eq_3 c _ (Ne.symm h.1), ih h.2]

/-- A line feed between two texts separates their lines. -/
theorem lines_append (front back : List Char) :
  lines (front ++ '\n' :: back) = lines front ++ lines back
  := by
  induction front with
  | nil => rfl
  | cons c rest ih =>
    by_cases hc : c = '\n'
    · rw [hc, List.cons_append, lines, lines, ih, List.cons_append]
    · obtain ⟨first, others, hrest, hlines⟩ := exists_lines_cons hc rest
      rw [hlines, List.cons_append, lines.eq_3 c _ hc, ih, hrest, List.cons_append, List.cons_append]

/-- Lines that are put together are taken apart again. -/
theorem lines_unlines (hne : ls ≠ []) (h : ∀ line ∈ ls, '\n' ∉ line) :
  lines (unlines ls) = ls
  := by
  induction ls with
  | nil => contradiction
  | cons line rest ih =>
    have hline := h line List.mem_cons_self
    cases rest with
    | nil =>
      rw [unlines, List.intercalate_singleton]
      apply lines_of_not_mem hline
    | cons next others =>
      have hrest := ih (List.cons_ne_nil next others) fun l hl => h l (List.mem_cons_of_mem line hl)
      rw [unlines, List.intercalate_cons_cons, List.append_assoc, List.singleton_append,
        lines_append_cons hline]
      congr 1

/-! ### Comments -/

theorem beforeSlashes_cons {c : Char} (hc : c ≠ '/') (rest : List Char) :
  beforeSlashes (c :: rest) = c :: beforeSlashes rest
  := by
  rw [beforeSlashes.eq_2]
  exact fun _ h _ => hc h

/-- Where a text has no two slashes and none follows, no comment begins in it. -/
theorem beforeSlashes_append {back : List Char} (h : ¬['/', '/'] <:+: line)
    (hback : back.head? ≠ some '/') :
  beforeSlashes (line ++ back) = line ++ beforeSlashes back
  := by
  induction line with
  | nil => rfl
  | cons d rest ih =>
    rw [List.infix_cons_iff, not_or] at h
    rw [List.cons_append, beforeSlashes.eq_2, ih h.2, List.cons_append]
    intro others hd hothers
    subst hd
    cases rest with
    | nil =>
      rw [List.nil_append] at hothers
      rw [hothers] at hback
      exact hback rfl
    | cons e rest =>
      obtain ⟨rfl, -⟩ := List.cons.inj hothers
      apply h.1
      exact ⟨rest, rfl⟩

/-- A line without two slashes has no comment to cut off. -/
theorem beforeSlashes_of_not_infix (h : ¬['/', '/'] <:+: line) :
  beforeSlashes line = line
  := by
  have happend : beforeSlashes (line ++ []) = line ++ beforeSlashes [] := beforeSlashes_append h nofun
  rw [beforeSlashes.eq_3, List.append_nil] at happend
  exact happend

theorem not_infix_of_not_mem (h : '/' ∉ line) :
  ¬['/', '/'] <:+: line
  := fun hslashes => h (hslashes.subset List.mem_cons_self)

/-- A line without a hash has no comment to cut off. -/
theorem beforeHash_of_not_mem (h : '#' ∉ line) :
  beforeHash line = line
  := by
  induction line using beforeHash.induct with
  | case1 => rfl
  | case2 d => rfl
  | case3 d e rest hcomment =>
    rw [Bool.and_eq_true, beq_iff_eq] at hcomment
    simp [hcomment.2] at h
  | case4 d e rest hcomment ih =>
    rw [beforeHash, if_neg hcomment, ih (List.not_mem_of_not_mem_cons h)]

/-- Without a comment only the blanks around a line are no part of its normal form. -/
theorem normalize_eq_trim (hslashes : ¬['/', '/'] <:+: line) (hhash : '#' ∉ line) :
  normalize line = trim line
  := by
  rw [normalize, beforeSlashes_of_not_infix hslashes, beforeHash_of_not_mem hhash]

end DiagramLayout.Script
