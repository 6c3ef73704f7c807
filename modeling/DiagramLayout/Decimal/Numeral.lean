/-!
# Decimal numerals

A numeral is a sign, the digits before the point, perhaps the digits after it, and perhaps a power
of ten. `significand` and `scale` give its exact value, `toDouble` the double-precision number
nearest to it.

`toScaledDouble?` reads a numeral the quick way: the digits that fit a 64-bit word form the
significand, and one multiplication or division by a power of ten finishes. It has no answer when
the number is too large for double precision.
-/

namespace DiagramLayout

/-- A power of ten: a sign and decimal digits, the most significant first. -/
structure Exponent where
  negative : Bool
  digits : List Nat
deriving DecidableEq, Repr

/-- A decimal numeral as it is written; digits come most significant first. -/
structure Numeral where
  negative : Bool
  whole : List Nat
  fraction : Option (List Nat)
  exponent : Option Exponent
deriving DecidableEq, Repr

namespace Numeral

/-- The number that decimal digits write, most significant first. -/
def ofDigits (digits : List Nat) : Nat :=
  digits.foldl (fun n d => 10 * n + d) 0

/-- The decimal digits of `n` in front of `tail`, with `fuel` bounding their number. -/
def digitsBefore : Nat → Nat → List Nat → List Nat
  | 0, _, tail => tail
  | fuel + 1, n, tail => if n < 10 then n :: tail else digitsBefore fuel (n / 10) (n % 10 :: tail)

/-- The decimal digits of `n`, most significant first; a single zero for zero. -/
def digitsOf (n : Nat) : List Nat :=
  digitsBefore (n + 1) n []

/-- The numeral of a natural number. -/
def ofNat (n : Nat) : Numeral :=
  ⟨false, digitsOf n, none, none⟩

/-- The power of ten that the numeral names. -/
def power (n : Numeral) : Int :=
  match n.exponent with
  | none => 0
  | some e => if e.negative then -(ofDigits e.digits : Int) else ofDigits e.digits

/-- All digits of the numeral, read as one number. -/
def significand (n : Numeral) : Nat :=
  ofDigits (n.whole ++ n.fraction.getD [])

/-- The power of ten that the significand is multiplied by. -/
def scale (n : Numeral) : Int :=
  n.power - (n.fraction.getD []).length

/-- Whether the numeral has neither a point nor a power of ten. -/
def isWhole (n : Numeral) : Bool :=
  n.fraction.isNone && n.exponent.isNone

/-- A magnitude with the sign of the numeral. -/
def signed (n : Numeral) (magnitude : Float) : Float :=
  if n.negative then -magnitude else magnitude

/-- The power of ten just above the value of a numeral whose significand is not zero. -/
def magnitude (n : Numeral) : Int :=
  n.scale + (digitsOf n.significand).length

/-- The double-precision number nearest to the value of the numeral. Values of `10 ^ 400` or more
are beyond its range, and those below `10 ^ (-400)` round to zero. -/
def toDouble (n : Numeral) : Float :=
  n.signed <|
    if n.significand = 0 ∨ n.magnitude < -400 then 0.0
    else if 400 < n.magnitude then Float.ofBits 0x7ff0000000000000
    else if 0 ≤ n.scale then Float.ofScientific n.significand false n.scale.toNat
    else Float.ofScientific n.significand true (-n.scale).toNat

/-! ### Reading through a 64-bit significand -/

/-- The greatest 64-bit word. -/
def greatestWord : Nat :=
  0xffffffffffffffff

/-- A significand and a power of ten, with a mark that no further digit fits. -/
structure Scaled where
  significand : Nat
  power : Int
  full : Bool

/-- Takes one more digit before the point: a digit that does not fit counts as a power of ten, and
so do all after it. -/
def Scaled.pushWhole (s : Scaled) (digit : Nat) : Scaled :=
  if s.full then ⟨s.significand, s.power + 1, true⟩
  else if 10 * s.significand + digit ≤ greatestWord then
    ⟨10 * s.significand + digit, s.power, false⟩
  else ⟨s.significand, s.power + 1, true⟩

/-- Takes one more digit after the point: a digit that does not fit is dropped, and so are all
after it. -/
def Scaled.pushFraction (s : Scaled) (digit : Nat) : Scaled :=
  if s.full then s
  else if 10 * s.significand + digit ≤ greatestWord then
    ⟨10 * s.significand + digit, s.power - 1, false⟩
  else ⟨s.significand, s.power, true⟩

/-- The significand that fits a word, with the power of ten that goes with it. -/
def scaled (n : Numeral) : Scaled :=
  let before := n.whole.foldl Scaled.pushWhole ⟨0, n.power, false⟩
  (n.fraction.getD []).foldl Scaled.pushFraction ⟨before.significand, before.power, false⟩

/-- The double-precision number nearest to `10 ^ k`. -/
def powerOfTen (k : Nat) : Float :=
  Float.ofScientific 1 false k

/-- Multiplies by a power of ten in double precision, in steps of at most `10 ^ 308`; there is no
answer beyond the range. -/
def shiftTens (f : Float) (e : Int) : Option Float :=
  if e.natAbs ≤ 308 then
    if 0 ≤ e then
      let g := f * powerOfTen e.natAbs
      if g.isInf then none else some g
    else some (f / powerOfTen e.natAbs)
  else if f == 0 then some f
  else if 0 ≤ e then none
  else shiftTens (f / powerOfTen 308) (e + 308)
termination_by e.natAbs

/-- The double-precision number that the quick reading gives. -/
def toScaledDouble? (n : Numeral) : Option Float :=
  (shiftTens (Float.ofNat n.scaled.significand) n.scaled.power).map n.signed

/-! ### Text -/

/-- The character of a decimal digit. -/
def digitChar (d : Nat) : Char :=
  Char.ofNat ('0'.toNat + d)

/-- The digit that a character stands for. -/
def digit? (c : Char) : Option Nat :=
  if '0' ≤ c ∧ c ≤ '9' then some (c.toNat - '0'.toNat) else none

/-- The characters of a list of digits. -/
def digitChars (digits : List Nat) : List Char :=
  digits.map digitChar

/-- The characters of a power of ten, its sign always written. -/
def Exponent.chars (e : Exponent) : List Char :=
  'e' :: (if e.negative then '-' else '+') :: digitChars e.digits

/-- The characters of a numeral. -/
def chars (n : Numeral) : List Char :=
  (if n.negative then ['-'] else []) ++ digitChars n.whole
    ++ (match n.fraction with
        | none => []
        | some ds => '.' :: digitChars ds)
    ++ (match n.exponent with
        | none => []
        | some e => Exponent.chars e)

end Numeral

end DiagramLayout
