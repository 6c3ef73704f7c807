import DiagramLayout.Json.Basic

/-!
# The text of JSON values

A value is written on one line, or with every item and field on a line of its own, indented by two
spaces for each level. Quotes, backslashes and control characters are escaped in strings, and
further characters as the style asks.
-/

namespace DiagramLayout

/-- How values are laid out and which further characters are escaped. -/
structure JsonStyle where
  indented : Bool
  escapes : Char → Bool

namespace JsonStyle

/-- Everything on one line. -/
def compact : JsonStyle :=
  ⟨false, fun _ => false⟩

/-- Every item and field on its own line. -/
def pretty : JsonStyle :=
  ⟨true, fun _ => false⟩

/-- Everything on one line, with no character that some reader takes for the end of a line. -/
def oneLine : JsonStyle :=
  ⟨false, fun c => c == '\u0085' || c == '\u2028' || c == '\u2029'⟩

/-- The line break in front of an item at some depth. -/
def lineBreak (s : JsonStyle) (depth : Nat) : List Char :=
  if s.indented then '\n' :: List.replicate (2 * depth) ' ' else []

/-- What stands between the name of a field and its value. -/
def colon (s : JsonStyle) : List Char :=
  if s.indented then [':', ' '] else [':']

/-- A hexadecimal digit. -/
def hexDigit (n : Nat) : Char :=
  if n < 10 then Char.ofNat ('0'.toNat + n) else Char.ofNat ('a'.toNat + (n - 10))

/-- The escape that names a character by four hexadecimal digits. -/
def unicodeEscape (c : Char) : List Char :=
  let n := c.toNat
  ['\\', 'u', hexDigit (n / 4096 % 16), hexDigit (n / 256 % 16), hexDigit (n / 16 % 16),
    hexDigit (n % 16)]

/-- A character inside a string. -/
def stringChar (s : JsonStyle) (c : Char) : List Char :=
  if c = '"' then ['\\', '"']
  else if c = '\\' then ['\\', '\\']
  else if c = '\x08' then ['\\', 'b']
  else if c = '\x0c' then ['\\', 'f']
  else if c = '\n' then ['\\', 'n']
  else if c = '\r' then ['\\', 'r']
  else if c = '\t' then ['\\', 't']
  else if c.toNat < 0x20 || s.escapes c then unicodeEscape c
  else [c]

/-- A string in quotes. -/
def quoted (s : JsonStyle) (text : String) : List Char :=
  '"' :: text.toList.flatMap s.stringChar ++ ['"']

mutual

/-- The text of a value at some depth. -/
def write (s : JsonStyle) (depth : Nat) : Json → List Char
  | .null => ['n', 'u', 'l', 'l']
  | .bool true => ['t', 'r', 'u', 'e']
  | .bool false => ['f', 'a', 'l', 's', 'e']
  | .number n => n.chars
  | .string text => s.quoted text
  | .array [] => ['[', ']']
  | .array (item :: items) =>
    '[' :: s.lineBreak (depth + 1) ++ write s (depth + 1) item ++ writeItems s (depth + 1) items
      ++ s.lineBreak depth ++ [']']
  | .object [] => ['\x7b', '\x7d']
  | .object ((name, value) :: fields) =>
    '\x7b' :: s.lineBreak (depth + 1) ++ s.quoted name ++ s.colon ++ write s (depth + 1) value
      ++ writeFields s (depth + 1) fields ++ s.lineBreak depth ++ ['\x7d']

/-- The text of the items behind the first one. -/
def writeItems (s : JsonStyle) (depth : Nat) : List Json → List Char
  | [] => []
  | item :: items => ',' :: s.lineBreak depth ++ write s depth item ++ writeItems s depth items

/-- The text of the fields behind the first one. -/
def writeFields (s : JsonStyle) (depth : Nat) : List (String × Json) → List Char
  | [] => []
  | (name, value) :: fields =>
    ',' :: s.lineBreak depth ++ s.quoted name ++ s.colon ++ write s depth value
      ++ writeFields s depth fields

end

/-- The text of a value. -/
def print (s : JsonStyle) (value : Json) : String :=
  String.ofList (s.write 0 value)

end JsonStyle

end DiagramLayout
