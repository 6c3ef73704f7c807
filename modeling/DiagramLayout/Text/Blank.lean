/-!
# Blanks and words in front of a text

A character is blank when Unicode gives it the property White_Space. `trim` drops the blanks at
both ends of a text and `dropBlanks` those in front of it. `after? word` takes a word off the front of a
text: it answers with what stands behind the word, and has no answer when the text does not begin with it.
-/

namespace DiagramLayout

/-- Whether Unicode gives the character the property White_Space. -/
def isBlank (c : Char) : Bool :=
  let n := c.toNat
  (0x09 ≤ n && n ≤ 0x0d) || n == 0x20 || n == 0x85 || n == 0xa0 || n == 0x1680
    || (0x2000 ≤ n && n ≤ 0x200a) || n == 0x2028 || n == 0x2029 || n == 0x202f || n == 0x205f
    || n == 0x3000

/-- The text without the blanks in front. -/
def dropBlanks (cs : List Char) : List Char :=
  cs.dropWhile isBlank

/-- The text without the blanks behind. -/
def dropBlanksEnd (cs : List Char) : List Char :=
  (dropBlanks cs.reverse).reverse

/-- The text without the blanks at both ends. -/
def trim (cs : List Char) : List Char :=
  dropBlanksEnd (dropBlanks cs)

/-- The string of a text without the blanks at both ends. -/
def trimmed (cs : List Char) : String :=
  String.ofList (trim cs)

/-- Every character that the standard library calls white space is blank. -/
theorem isBlank_of_isWhitespace (c : Char) (h : c.isWhitespace = true) :
  isBlank c = true
  := by
  simp only [Char.isWhitespace, Bool.or_eq_true, decide_eq_true_eq] at h
  rcases h with ((h | h) | h) | h <;> subst h <;> rfl

/-- What stands behind a word in front. -/
def after? : List Char → List Char → Option (List Char)
  | [], cs => some cs
  | _ :: _, [] => none
  | w :: word, c :: cs => if w = c then after? word cs else none

/-- Exactly the texts that begin with the word have an answer, which is the rest of the text. -/
theorem after?_eq_some_iff (word cs rest : List Char) :
  after? word cs = some rest ↔ cs = word ++ rest
  := by
  induction word generalizing cs with
  | nil => simp [after?]
  | cons w word ih =>
    cases cs with
    | nil => simp [after?]
    | cons c cs =>
      by_cases h : w = c
      · simp [after?, h, ih]
      · simp [after?, h, Ne.symm h]

end DiagramLayout
