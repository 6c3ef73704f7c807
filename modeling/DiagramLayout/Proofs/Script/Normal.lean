import DiagramLayout.Proofs.Script.Line
import DiagramLayout.Proofs.Script.Reading
import DiagramLayout.Proofs.Text.Blank

/-!
# Lines in normal form

No comment begins in a line in normal form, and it has no blank at either end. Every line is brought
into this form, which is left as it is from then on: what is cut off at one kind of comment is an end of
the line, so that no comment of the other kind is uncovered. A script says the same when its lines are
replaced by their normal forms.
-/

namespace DiagramLayout

namespace Script

/-- A line without two slashes, without a hash behind a blank and without a blank at either end. -/
structure IsNormal (line : List Char) : Prop where
  slashes : ¬['/', '/'] <:+: line
  hash : ∀ c, isBlank c = true → ¬[c, '#'] <:+: line
  trim : IsTrim line

/-- The text with each of its lines in normal form. -/
def normalText (text : String) : String :=
  String.ofList (unlines ((lines text.toList).map normalize))

variable {line : List Char}

/-! ### Comments are cut off -/

/-- What stands before two slashes is a beginning of the line. -/
theorem isPrefix_beforeSlashes (line : List Char) :
  beforeSlashes line <+: line
  := by
  fun_induction beforeSlashes line with
  | case1 rest => exact List.nil_prefix
  | case2 c rest _ ih => exact List.cons_prefix_cons.mpr ⟨rfl, ih⟩
  | case3 => exact List.prefix_refl []

/-- No two slashes are left. -/
theorem not_slashes_beforeSlashes (line : List Char) :
  ¬['/', '/'] <:+: beforeSlashes line
  := by
  fun_induction beforeSlashes line with
  | case1 rest => simp
  | case2 c rest hslashes ih =>
    rw [List.infix_cons_iff, not_or]
    refine ⟨?_, ih⟩
    -- Two slashes at this place would be in the line itself.
    rw [List.cons_prefix_cons]
    rintro ⟨rfl, hfront⟩
    obtain ⟨others, hothers⟩ := hfront.trans (isPrefix_beforeSlashes rest)
    exact hslashes others rfl hothers.symm
  | case3 => simp

/-- What stands before a hash is a beginning of the line. -/
theorem isPrefix_beforeHash (line : List Char) :
  beforeHash line <+: line
  := by
  fun_induction beforeHash line with
  | case1 => exact List.prefix_refl []
  | case2 c => exact List.prefix_refl [c]
  | case3 c d rest _ => exact List.prefix_append [c] (d :: rest)
  | case4 c d rest _ ih => exact List.cons_prefix_cons.mpr ⟨rfl, ih⟩

/-- No hash behind a blank is left. -/
theorem not_hash_beforeHash {c : Char} (hc : isBlank c = true) (line : List Char) :
  ¬[c, '#'] <:+: beforeHash line
  := by
  fun_induction beforeHash line with
  | case1 => simp
  | case2 d => simp [List.infix_cons_iff]
  | case3 d e rest _ => simp [List.infix_cons_iff]
  | case4 d e rest hcomment ih =>
    rw [List.infix_cons_iff, not_or]
    refine ⟨?_, ih⟩
    rw [List.cons_prefix_cons]
    rintro ⟨rfl, hfront⟩
    obtain ⟨rfl, -⟩ := List.cons_prefix_cons.mp (hfront.trans (isPrefix_beforeHash (e :: rest)))
    rw [hc] at hcomment
    exact hcomment rfl

/-- Where no hash stands behind a blank, no comment begins at a hash. -/
theorem beforeHash_eq (h : ∀ c, isBlank c = true → ¬[c, '#'] <:+: line) :
  beforeHash line = line
  := by
  fun_induction beforeHash line with
  | case1 => rfl
  | case2 c => rfl
  | case3 c d rest hcomment =>
    obtain ⟨hc, hd⟩ := Bool.and_eq_true_iff.mp hcomment
    obtain rfl := beq_iff_eq.mp hd
    exact absurd ⟨[], rest, rfl⟩ (h c hc)
  | case4 c d rest _ ih =>
    rw [ih]
    intro e he hinfix
    exact h e he (List.infix_cons hinfix)

/-! ### Normal forms -/

/-- Normalizing leads to normal form. -/
theorem isNormal_normalize (line : List Char) :
  IsNormal (normalize line)
  where
  slashes := fun h => not_slashes_beforeSlashes line
    ((h.trans (isInfix_trim _)).trans (isPrefix_beforeHash _).isInfix)
  hash := fun _ hc h => not_hash_beforeHash hc _ (h.trans (isInfix_trim _))
  trim := isTrim_trim _

/-- A line in normal form is left as it is. -/
theorem IsNormal.normalize_eq (h : IsNormal line) :
  normalize line = line
  := by
  rw [normalize, beforeSlashes_of_not_infix h.slashes, beforeHash_eq h.hash, trim_eq h.trim]

/-- The lines in normal form are those that are left as they are. -/
theorem normalize_eq_self_iff :
  normalize line = line ↔ IsNormal line
  := by
  refine ⟨?_, IsNormal.normalize_eq⟩
  intro h
  rw [← h]
  exact isNormal_normalize line

/-- Normalizing twice is normalizing once. -/
theorem normalize_normalize (line : List Char) :
  normalize (normalize line) = normalize line
  := (isNormal_normalize line).normalize_eq

theorem normalize_subset (line : List Char) :
  normalize line ⊆ line
  := ((isInfix_trim _).trans ((isPrefix_beforeHash _).trans (isPrefix_beforeSlashes line)).isInfix).subset

/-- The lines of the normal text are the normal forms of the lines. -/
theorem lines_normalText (text : String) :
  lines (normalText text).toList = (lines text.toList).map normalize
  := by
  rw [normalText, String.toList_ofList, lines_unlines]
  · rw [ne_eq, List.map_eq_nil_iff]
    exact lines_ne_nil text.toList
  · intro line hline hmem
    obtain ⟨raw, hraw, rfl⟩ := List.mem_map.mp hline
    exact not_mem_of_mem_lines hraw (normalize_subset raw hmem)

/-- A line feed behind a text begins one more line, which is empty. -/
theorem lines_concat (cs : List Char) :
  lines (cs ++ ['\n']) = lines cs ++ [[]]
  := lines_append cs []

end Script

namespace Reading

/-- A line is read as its normal form is. -/
theorem step_normalize (r : Reading) (number : ℕ) (line : List Char) :
  r.step number (Script.normalize line) = r.step number line
  := by
  rw [step, step, Script.normalize_normalize]

/-- Lines and their normal forms are read alike. -/
theorem readFrom_map_normalize (r : Reading) (number : ℕ) (lines : List (List Char)) :
  r.readFrom number (lines.map Script.normalize) = r.readFrom number lines
  := by
  induction lines generalizing r number with
  | nil => rfl
  | cons line rest ih => rw [List.map_cons, readFrom, readFrom, step_normalize, ih]

/-- A line feed at the end of a text says nothing. -/
theorem ofText_append_newline (text : String) :
  ofText (text ++ "\n") = ofText text
  := by
  rw [ofText, ofText, String.toList_append]
  change (initial.readFrom 1 (Script.lines (text.toList ++ ['\n']))).finish = _
  rw [Script.lines_concat, readFrom_append]
  rfl

/-- The normal form of a line is normal, and the normal lines are those that are their own normal form, so
that normalizing again changes nothing. A text with each line in normal form is read as the text itself,
complaints with their line numbers included, and a line feed at its end makes no difference. -/
theorem ofText_normalText (text : String) :
  (∀ line, Script.IsNormal (Script.normalize line)
      ∧ Script.normalize (Script.normalize line) = Script.normalize line)
    ∧ (∀ line, Script.normalize line = line ↔ Script.IsNormal line)
    ∧ ofText (Script.normalText text) = ofText text
    ∧ ofText (text ++ "\n") = ofText text
  := by
  refine ⟨fun line => ⟨Script.isNormal_normalize line, Script.normalize_normalize line⟩,
    fun line => Script.normalize_eq_self_iff, ?_, ofText_append_newline text⟩
  rw [ofText, ofText, Script.lines_normalText, readFrom_map_normalize]

end Reading

end DiagramLayout
