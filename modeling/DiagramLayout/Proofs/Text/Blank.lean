import DiagramLayout.Text.Blank
import Mathlib.Data.List.Basic
import Mathlib.Data.List.Infix

/-!
# Trimmed texts

A text is trimmed when there is no blank at either end. Trimming makes any text trimmed, takes away
the blanks around a trimmed text and nothing else.
-/

namespace DiagramLayout

/-- There is no blank at either end of the characters. -/
structure IsTrim (cs : List Char) : Prop where
  head : ∀ c ∈ cs.head?, isBlank c = false
  getLast : ∀ c ∈ cs.getLast?, isBlank c = false

/-- There is no blank at either end of the text. -/
def IsTrimmed (text : String) : Prop :=
  IsTrim text.toList

variable {cs front back : List Char}

/-- Where no character is blank, there is none at the ends. -/
theorem isTrim_of_forall (h : ∀ c ∈ cs, isBlank c = false) :
  IsTrim cs
  where
  head := fun c hc => h c (List.mem_of_mem_head? hc)
  getLast := fun c hc => h c (List.mem_of_mem_getLast? hc)

theorem isTrim_singleton {c : Char} (h : isBlank c = false) :
  IsTrim [c]
  := by
  apply isTrim_of_forall
  intro d hd
  obtain rfl := List.mem_singleton.mp hd
  exact h

/-- What stands between trimmed texts may have blanks at its ends. -/
theorem IsTrim.between (hfront : IsTrim front) (hfrontNe : front ≠ []) (hback : IsTrim back)
    (hbackNe : back ≠ []) (middle : List Char) :
  IsTrim (front ++ middle ++ back)
  where
  head := by
    intro c hc
    rw [List.append_assoc, List.head?_append_of_ne_nil _ hfrontNe] at hc
    exact hfront.head c hc
  getLast := by
    intro c hc
    rw [List.getLast?_append_of_ne_nil _ hbackNe] at hc
    exact hback.getLast c hc

/-- What is left after the leading blanks does not begin with a blank. -/
theorem isBlank_head_dropBlanks {c : Char} (hc : c ∈ (dropBlanks cs).head?) :
  isBlank c = false
  := by
  have hnot := List.head?_dropWhile_not isBlank cs
  rw [← dropBlanks, Option.mem_def.mp hc] at hnot
  exact hnot

/-- Trimming at the end leaves a prefix of what trimming at the front left. -/
theorem isPrefix_trim (cs : List Char) :
  trim cs <+: dropBlanks cs
  := by
  have hsuffix := List.dropWhile_suffix isBlank (l := (dropBlanks cs).reverse)
  rw [← List.reverse_prefix, List.reverse_reverse] at hsuffix
  exact hsuffix

/-- The trimmed characters stand together in the text. -/
theorem isInfix_trim (cs : List Char) :
  trim cs <:+: cs
  := (isPrefix_trim cs).isInfix.trans (List.dropWhile_suffix isBlank).isInfix

/-- Trimmed characters neither begin nor end with a blank. -/
theorem isTrim_trim (cs : List Char) :
  IsTrim (trim cs)
  where
  head := by
    intro c hc
    obtain ⟨rest, hrest⟩ := isPrefix_trim cs
    have hhead : c ∈ (dropBlanks cs).head? := by
      rw [← hrest]
      apply List.mem_head?_append_of_mem_head? hc
    apply isBlank_head_dropBlanks hhead
  getLast := by
    intro c hc
    rw [trim, dropBlanksEnd, List.getLast?_reverse] at hc
    apply isBlank_head_dropBlanks hc

theorem isTrimmed_trimmed (cs : List Char) :
  IsTrimmed (trimmed cs)
  := by
  rw [IsTrimmed, trimmed, String.toList_ofList]
  apply isTrim_trim

/-- No blank is dropped in front of a character that is not blank. -/
theorem dropBlanks_of_head (h : ∀ c ∈ cs.head?, isBlank c = false) :
  dropBlanks cs = cs
  := by
  cases cs with
  | nil => rfl
  | cons c rest =>
    rw [dropBlanks, List.dropWhile_cons_of_neg]
    rw [h c rfl]
    exact Bool.false_ne_true

/-- The blanks in front are dropped. -/
theorem dropBlanks_append (hfront : ∀ c ∈ front, isBlank c = true) (cs : List Char) :
  dropBlanks (front ++ cs) = dropBlanks cs
  := by
  apply List.dropWhile_append_of_pos hfront

/-- Trimming takes away the blanks around a trimmed text. -/
theorem trim_append (hfront : ∀ c ∈ front, isBlank c = true) (hback : ∀ c ∈ back, isBlank c = true)
    (h : IsTrim cs) :
  trim (front ++ cs ++ back) = cs
  := by
  have hend : dropBlanksEnd (cs ++ back) = cs := by
    rw [dropBlanksEnd, List.reverse_append, dropBlanks_append, dropBlanks_of_head,
      List.reverse_reverse]
    · rw [List.head?_reverse]
      apply h.getLast
    · intro c hc
      apply hback c (List.mem_reverse.mp hc)
  rw [trim, List.append_assoc, dropBlanks_append hfront]
  cases cs with
  | nil =>
    rw [List.nil_append] at hend ⊢
    rw [← List.append_nil back, dropBlanks_append hback]
    rfl
  | cons c rest =>
    rw [dropBlanks_of_head, hend]
    apply h.head

/-- A text without outer blanks is its own trimming. -/
theorem trim_eq (h : IsTrim cs) :
  trim cs = cs
  := by
  have hnone : ∀ c ∈ ([] : List Char), isBlank c = true := nofun
  have happend := trim_append hnone hnone h
  rw [List.nil_append, List.append_nil] at happend
  exact happend

/-- Trimming twice is trimming once. -/
theorem trim_trim (cs : List Char) :
  trim (trim cs) = trim cs
  := trim_eq (isTrim_trim cs)

theorem trim_subset (cs : List Char) :
  trim cs ⊆ cs
  := (isInfix_trim cs).subset

/-- Blanks around a text do not change what is left of it. -/
theorem trim_padded (hfront : ∀ c ∈ front, isBlank c = true) (hback : ∀ c ∈ back, isBlank c = true)
    (cs : List Char) :
  trim (front ++ cs ++ back) = trim cs
  := by
  have hend : ∀ rest, dropBlanksEnd (rest ++ back) = dropBlanksEnd rest := by
    intro rest
    rw [dropBlanksEnd, List.reverse_append, dropBlanks_append, dropBlanksEnd]
    intro c hc
    exact hback c (List.mem_reverse.mp hc)
  rw [trim, trim, List.append_assoc, dropBlanks_append hfront, dropBlanks, dropBlanks,
    List.dropWhile_append]
  split_ifs with hempty
  · rw [List.isEmpty_iff.mp hempty, ← List.nil_append back, List.nil_append, ← dropBlanks,
      ← List.append_nil back, dropBlanks_append hback]
    rfl
  · apply hend

end DiagramLayout
