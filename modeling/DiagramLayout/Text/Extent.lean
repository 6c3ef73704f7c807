/-!
# The extent of a text

The width of a text is estimated as the sum of one advance for each character: one for the space,
one for the characters of Latin-1 and one for all others. A text too wide for its place is
shortened: its longest start that fits together with an ellipsis is kept.

A text that holds a character of the Arabic block runs from right to left.
-/

namespace DiagramLayout

/-- The advance of each kind of character. -/
structure CharWidths where
  latin : Float32 := 7.2
  wide : Float32 := 8.7
  space : Float32 := 4.0
deriving DecidableEq

/-- The direction in which a text runs. -/
inductive TextDirection
  | leftToRight
  | rightToLeft
deriving DecidableEq

namespace TextDirection

/-- The name of a direction in a report. -/
def name : TextDirection → String
  | .leftToRight => "ltr"
  | .rightToLeft => "rtl"

/-- Whether the character belongs to the Arabic block. -/
def isArabic (c : Char) : Bool :=
  0x600 ≤ c.toNat && c.toNat ≤ 0x6ff

/-- The direction of a text. -/
def ofText (text : String) : TextDirection :=
  if text.toList.any isArabic then .rightToLeft else .leftToRight

end TextDirection

namespace CharWidths

/-- The advance of a character. -/
def advance (w : CharWidths) (c : Char) : Float32 :=
  if c = ' ' then w.space else if 255 < c.toNat then w.wide else w.latin

/-- The estimated width of a text: its advances added from left to right, onto negative zero. -/
def width (w : CharWidths) (cs : List Char) : Float32 :=
  cs.foldl (fun sum c => sum + w.advance c) (-(0.0 : Float32))

/-- The estimated width of a string. -/
def widthOf (w : CharWidths) (text : String) : Float32 :=
  w.width text.toList

/-- What stands for the end of a shortened text. -/
def ellipsis : List Char :=
  ['.', '.', '.']

/-- The longest start of `cs` with at most `n` characters that fits together with an ellipsis, that
ellipsis included. -/
def shorten (w : CharWidths) (limit : Float32) (cs : List Char) : Nat → List Char
  | 0 => ellipsis
  | n + 1 =>
    let candidate := cs.take (n + 1) ++ ellipsis
    if w.width candidate ≤ limit then candidate else shorten w limit cs n

/-- The text itself when it fits, and otherwise its longest proper start that fits with an
ellipsis behind it. -/
def fit (w : CharWidths) (limit : Float32) (text : String) : String :=
  if w.widthOf text ≤ limit then text
  else String.ofList (w.shorten limit text.toList (text.toList.length - 1))

end CharWidths

end DiagramLayout
