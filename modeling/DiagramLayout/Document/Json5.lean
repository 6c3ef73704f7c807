import DiagramLayout.Document.Json
import DiagramLayout.Text.Letter
import DiagramLayout.Text.Mark

/-!
# Reading JSON5

`Document.ofJson5?` reads a text that holds one JSON5 value and nothing else. Beyond JSON there are
comments, more blanks, strings in single quotes, more escapes, names as keys, a comma behind the
last item, and numbers that are hexadecimal, infinite, not a number, or begin or end with a point.
-/

namespace DiagramLayout.Json5Text

/-- Whether the character ends a line. -/
def endsLine (c : Char) : Bool :=
  c == '\n' || c == '\r' || c == '\u2028' || c == '\u2029'

/-- Whether JSON5 allows the character between tokens. -/
def isSpace (c : Char) : Bool :=
  let n := c.toNat
  n == 0x09 || n == 0x0b || n == 0x0c || n == 0x20 || n == 0xa0 || n == 0xfeff || n == 0x1680
    || (0x2000 ≤ n && n ≤ 0x200a) || n == 0x202f || n == 0x205f || n == 0x3000 || endsLine c

mutual

/-- The characters behind the blanks and comments in front. -/
def skip : List Char → List Char
  | [] => []
  | '/' :: '/' :: rest => skipLine rest
  | '/' :: '*' :: rest => skipBlock ('/' :: '*' :: rest) rest
  | c :: rest => if isSpace c then skip rest else c :: rest

/-- The characters behind a comment that lasts until the end of the line. -/
def skipLine : List Char → List Char
  | [] => []
  | c :: rest => if endsLine c then skip rest else skipLine rest

/-- The characters behind a comment in asterisks; one that is never closed stays, as `opening`. -/
def skipBlock (opening : List Char) : List Char → List Char
  | [] => opening
  | '*' :: '/' :: rest => skip rest
  | _ :: rest => skipBlock opening rest

end

/-! ### Strings and names -/

/-- The character that a backslash and `c` stand for. -/
def escaped? (c : Char) : Option Char :=
  match c with
  | 'b' => some '\x08'
  | 'f' => some '\x0c'
  | 'n' => some '\n'
  | 'r' => some '\r'
  | 't' => some '\t'
  | 'v' => some '\x0b'
  | '0' => some '\x00'
  | 'x' => none
  | 'u' => none
  | c => if '1' ≤ c ∧ c ≤ '9' then none else some c

/-- Puts a piece in front of those read behind it. -/
def push (piece : Piece) (found : Option (List Piece × List Char)) :
    Option (List Piece × List Char) :=
  found.map fun (pieces, rest) => (piece :: pieces, rest)

/-- The pieces of a string up to its closing quote. A backslash in front of the end of a line joins
the two lines. -/
def pieces? (quote : Char) : List Char → Option (List Piece × List Char)
  | [] => none
  | '\\' :: 'u' :: a :: b :: c :: d :: rest =>
    match Piece.hexNumber? [a, b, c, d] with
    | none => none
    | some n => push (.unit n) (pieces? quote rest)
  | '\\' :: 'x' :: a :: b :: rest =>
    match Piece.hexNumber? [a, b] with
    | none => none
    | some n => push (.unit n) (pieces? quote rest)
  | '\\' :: '\r' :: '\n' :: rest => pieces? quote rest
  | '\\' :: e :: rest =>
    if endsLine e then pieces? quote rest
    else
      match escaped? e with
      | none => none
      | some c => push (.char c) (pieces? quote rest)
  | c :: rest =>
    if c = quote then some ([], rest)
    else if c = '\\' ∨ endsLine c then none
    else push (.char c) (pieces? quote rest)

/-- Whether a name may begin with the character. -/
def beginsName (c : Char) : Bool :=
  isLetter c || c == '$' || c == '_'

/-- Whether a name may go on with the character. -/
def continuesName (c : Char) : Bool :=
  beginsName c || isMark c || c == '\u200c' || c == '\u200d'

/-- The pieces with which a name goes on, and the characters behind it. -/
def nameTail : List Char → List Piece × List Char
  | [] => ([], [])
  | '\\' :: 'u' :: a :: b :: c :: d :: rest =>
    match Piece.hexNumber? [a, b, c, d] with
    | none => ([], '\\' :: 'u' :: a :: b :: c :: d :: rest)
    | some n => (.unit n :: (nameTail rest).1, (nameTail rest).2)
  | c :: rest =>
    if continuesName c then (.char c :: (nameTail rest).1, (nameTail rest).2) else ([], c :: rest)

/-- The pieces of a name. -/
def name? (cs : List Char) : Option (List Piece × List Char) :=
  match cs with
  | [] => none
  | c :: _ => if c = '\\' ∨ beginsName c then
      match nameTail cs with
      | ([], _) => none
      | found => some found
    else none

/-- The pieces of a key: a string or a name. -/
def key? : List Char → Option (List Piece × List Char)
  | '"' :: rest => pieces? '"' rest
  | '\x27' :: rest => pieces? '\x27' rest
  | cs => name? cs

/-! ### Numbers -/

/-- The hexadecimal digits in front. -/
def hexDigits : List Char → List Nat × List Char
  | [] => ([], [])
  | c :: rest =>
    match Piece.hexValue? c with
    | some d => (d :: (hexDigits rest).1, (hexDigits rest).2)
    | none => ([], c :: rest)

/-- The sign in front of a number. -/
def sign : List Char → WrittenSign × List Char
  | '+' :: rest => (.plus, rest)
  | '-' :: rest => (.minus, rest)
  | cs => (.absent, cs)

/-- The digits before and behind the point; one of the two may be missing. -/
def places? : List Char → Option ((List Nat × Option (List Nat)) × List Char)
  | '.' :: rest => (JsonText.someDigits? rest).map fun (ds, rest) => (([], some ds), rest)
  | cs =>
    match JsonText.whole? cs with
    | none => none
    | some (whole, '.' :: rest) =>
      let (fraction, rest) := JsonText.digits rest
      some ((whole, some fraction), rest)
    | some (whole, rest) => some ((whole, none), rest)

/-- A decimal number behind its sign. -/
def decimal? (s : WrittenSign) (cs : List Char) : Option (NumberLiteral × List Char) := do
  let ((whole, fraction), rest) ← places? cs
  let (exponent, rest) ← JsonText.exponent? rest
  return (.decimal ⟨s = .minus, whole, fraction, exponent⟩, rest)

/-- A hexadecimal number behind its sign and its mark. -/
def hexadecimal? (s : WrittenSign) (cs : List Char) : Option (NumberLiteral × List Char) :=
  match hexDigits cs with
  | ([], _) => none
  | (ds, rest) => some (.hexadecimal s ds, rest)

/-- A number behind its sign. -/
def unsigned? (s : WrittenSign) : List Char → Option (NumberLiteral × List Char)
  | 'I' :: rest =>
    (after? ['n', 'f', 'i', 'n', 'i', 't', 'y'] rest).map fun rest => (.infinity s, rest)
  | 'N' :: rest => (after? ['a', 'N'] rest).map fun rest => (.notANumber s, rest)
  | '0' :: 'x' :: rest => hexadecimal? s rest
  | '0' :: 'X' :: rest => hexadecimal? s rest
  | cs => decimal? s cs

/-- A number. -/
def number? (cs : List Char) : Option (NumberLiteral × List Char) :=
  unsigned? (sign cs).1 (sign cs).2

/-! ### Values -/

/-- A string in the given quotes, as a value. -/
def string? (quote : Char) (cs : List Char) : Option (Document × List Char) :=
  (pieces? quote cs).map fun (pieces, rest) => (.string (Piece.content? pieces), rest)

mutual

/-- A value; `fuel` bounds the number of values and brackets on the way. -/
def value? : Nat → List Char → Option (Document × List Char)
  | 0, _ => none
  | fuel + 1, cs =>
    match skip cs with
    | '[' :: rest => (items? fuel rest).map fun (items, rest) => (.array items, rest)
    | '\x7b' :: rest => (fields? fuel rest).map fun (fields, rest) => (.object fields, rest)
    | '"' :: rest => string? '"' rest
    | '\x27' :: rest => string? '\x27' rest
    | 'n' :: rest => (after? ['u', 'l', 'l'] rest).map fun rest => (.null, rest)
    | 't' :: rest => (after? ['r', 'u', 'e'] rest).map fun rest => (.bool true, rest)
    | 'f' :: rest =>
      (after? ['a', 'l', 's', 'e'] rest).map fun rest => (.bool false, rest)
    | cs => (number? cs).map fun (n, rest) => (.number n, rest)

/-- The items of an array up to its closing bracket. -/
def items? : Nat → List Char → Option (List Document × List Char)
  | 0, _ => none
  | fuel + 1, cs =>
    match skip cs with
    | ']' :: rest => some ([], rest)
    | cs =>
      match value? fuel cs with
      | none => none
      | some (item, rest) =>
        match skip rest with
        | ']' :: rest => some ([item], rest)
        | ',' :: rest => (items? fuel rest).map fun (items, rest) => (item :: items, rest)
        | _ => none

/-- The fields of an object up to its closing brace. -/
def fields? : Nat → List Char → Option (List (Option String × Document) × List Char)
  | 0, _ => none
  | fuel + 1, cs =>
    match skip cs with
    | '\x7d' :: rest => some ([], rest)
    | cs =>
      match key? cs with
      | none => none
      | some (key, rest) =>
        match skip rest with
        | ':' :: rest =>
          match value? fuel rest with
          | none => none
          | some (value, rest) =>
            match skip rest with
            | '\x7d' :: rest => some ([(Piece.content? key, value)], rest)
            | ',' :: rest =>
              (fields? fuel rest).map fun (fields, rest) =>
                ((Piece.content? key, value) :: fields, rest)
            | _ => none
        | _ => none

end

/-- The only value of a text. -/
def read? (cs : List Char) : Option Document :=
  match value? (2 * cs.length + 2) cs with
  | some (value, rest) => if (skip rest).isEmpty then some value else none
  | none => none

end DiagramLayout.Json5Text

namespace DiagramLayout.Document

/-- The document of a JSON5 text. -/
def ofJson5? (text : String) : Option Document :=
  Json5Text.read? text.toList

end DiagramLayout.Document
