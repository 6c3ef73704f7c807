/-!
# The content of quoted strings

A string literal is read into pieces, characters and 16-bit units. `Piece.assemble?` joins the
units of surrogate pairs to characters and has no answer where half of a pair stands alone.
-/

namespace DiagramLayout

/-- A part of a string literal. -/
inductive Piece
  | char (c : Char)
  | unit (n : Nat)

namespace Piece

/-- Whether a unit is the first half of a surrogate pair. -/
def isHigh (n : Nat) : Bool :=
  0xd800 ≤ n && n ≤ 0xdbff

/-- Whether a unit is the second half of a surrogate pair. -/
def isLow (n : Nat) : Bool :=
  0xdc00 ≤ n && n ≤ 0xdfff

/-- The character of a surrogate pair. -/
def joined (high low : Nat) : Char :=
  Char.ofNat (0x10000 + (high - 0xd800) * 0x400 + (low - 0xdc00))

/-- The characters that the pieces write. -/
def assemble? : List Piece → Option (List Char)
  | [] => some []
  | char c :: rest => (assemble? rest).map (c :: ·)
  | [unit n] => if isHigh n || isLow n then none else some [Char.ofNat n]
  | unit n :: unit m :: rest =>
    if isHigh n then
      if isLow m then (assemble? rest).map (joined n m :: ·) else none
    else if isLow n then none
    else (assemble? (unit m :: rest)).map (Char.ofNat n :: ·)
  | unit n :: char c :: rest =>
    if isHigh n || isLow n then none else (assemble? (char c :: rest)).map (Char.ofNat n :: ·)

/-- The string that the pieces write. -/
def content? (pieces : List Piece) : Option String :=
  (assemble? pieces).map String.ofList

/-- The value of a hexadecimal digit. -/
def hexValue? (c : Char) : Option Nat :=
  if '0' ≤ c ∧ c ≤ '9' then some (c.toNat - '0'.toNat)
  else if 'a' ≤ c ∧ c ≤ 'f' then some (c.toNat - 'a'.toNat + 10)
  else if 'A' ≤ c ∧ c ≤ 'F' then some (c.toNat - 'A'.toNat + 10)
  else none

/-- The number that hexadecimal digits write, if all characters are such digits. -/
def hexNumber? (cs : List Char) : Option Nat :=
  cs.foldlM (fun n c => (hexValue? c).map (16 * n + ·)) 0

end Piece

end DiagramLayout
