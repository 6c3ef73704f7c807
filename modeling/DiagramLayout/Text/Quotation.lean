import DiagramLayout.Json.Printer
import DiagramLayout.Text.Invisible

/-!
# Quotations

`quotation` puts a text in quotes and escapes what could be misread: quotes and backslashes, and
characters that are invisible.
-/

namespace DiagramLayout

namespace Quotation

/-- The hexadecimal digits of `n` in front of `tail`, with `fuel` bounding their number. -/
def hexBefore : Nat → Nat → List Char → List Char
  | 0, _, tail => tail
  | fuel + 1, n, tail =>
    let digit := JsonStyle.hexDigit (n % 16)
    if n < 16 then digit :: tail else hexBefore fuel (n / 16) (digit :: tail)

/-- The escape that gives the code point of a character in braces. -/
def codePointEscape (c : Char) : List Char :=
  '\\' :: 'u' :: '\x7b' :: hexBefore 8 c.toNat ['\x7d']

/-- A character inside a quotation. -/
def char (c : Char) : List Char :=
  if c = '"' then ['\\', '"']
  else if c = '\\' then ['\\', '\\']
  else if c = '\x00' then ['\\', '0']
  else if c = '\t' then ['\\', 't']
  else if c = '\n' then ['\\', 'n']
  else if c = '\r' then ['\\', 'r']
  else if isInvisible c then codePointEscape c
  else [c]

end Quotation

/-- A text in quotes. -/
def quotation (text : String) : String :=
  String.ofList ('"' :: text.toList.flatMap Quotation.char ++ ['"'])

end DiagramLayout
