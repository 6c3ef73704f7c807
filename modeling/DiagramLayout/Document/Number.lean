import DiagramLayout.Document.Basic
import DiagramLayout.Single.Rounding

/-!
# The numbers of a document

What a number literal is worth depends on the format and on what it is read for.

In JSON a literal without point and power of ten is an integer when it fits 64 bits, and rounds to
single precision directly; any other goes through a double-precision number, and may not exceed its
range. A count has to be such an integer without sign. A value that is passed over is not looked at.

In JSON5 every literal goes through a double-precision number, except that a value that is passed
over may hold integers of 64 bits only. A signed infinity or hexadecimal number has no value where
it bears a plus sign, and a hexadecimal one has to fit 32 bits. A count is cut to a whole number.
-/

namespace DiagramLayout

/-- The two formats of settings files. -/
inductive DocumentFormat
  | json
  | json5
deriving DecidableEq

namespace JsonNumber

/-- The double-precision number of a JSON literal, unless it is too large. -/
def double? (n : Numeral) : Option Float :=
  n.toScaledDouble?

/-- The magnitude of a literal that stands for an integer of 64 bits. Zero with a sign does not. -/
def integer? (n : Numeral) : Option Nat :=
  let m := Numeral.ofDigits n.whole
  if n.isWhole then
    if n.negative then (if 0 < m ∧ m ≤ 0x8000000000000000 then some m else none)
    else if m ≤ Numeral.greatestWord then some m
    else none
  else none

/-- The single-precision number of a JSON literal. -/
def single? (n : Numeral) : Option Float32 :=
  match integer? n with
  | some m => some (if n.negative then -Float32.ofNat m else Float32.ofNat m)
  | none => (double? n).map Single.ofDouble

/-- The double-precision number of a JSON literal, an integer being rounded directly. -/
def nearestDouble? (n : Numeral) : Option Float :=
  match integer? n with
  | some m => some (n.signed (Float.ofNat m))
  | none => double? n

/-- The count that a JSON literal writes. -/
def count? (n : Numeral) : Option Nat :=
  if n.negative then none else integer? n

end JsonNumber

namespace Json5Number

/-- The double-precision number above all others. -/
def infinite : Float :=
  Float.ofBits 0x7ff0000000000000

/-- The double-precision value that is not a number. -/
def undefined : Float :=
  Float.ofBits 0x7ff8000000000000

/-- The number that hexadecimal digits write. -/
def ofHexDigits (digits : List Nat) : Nat :=
  digits.foldl (fun n d => 16 * n + d) 0

/-- The number of an unsigned hexadecimal literal of 32 bits. -/
def hexadecimal? (sign : WrittenSign) (digits : List Nat) : Option Nat :=
  let n := ofHexDigits digits
  if sign = .absent ∧ n < 0x100000000 then some n else none

/-- The double-precision number of a JSON5 literal. -/
def double? : NumberLiteral → Option Float
  | .decimal n => if n.toDouble.isFinite then some n.toDouble else none
  | .hexadecimal sign digits => (hexadecimal? sign digits).map Float.ofNat
  | .infinity .absent => some infinite
  | .infinity .minus => some (-infinite)
  | .infinity .plus => none
  | .notANumber .plus => none
  | .notANumber _ => some undefined

/-- The whole part of a double-precision number, held to 64 bits without sign. -/
def toCount (d : Float) : Nat :=
  (max 0 (min 0xffffffffffffffff (d.toModel.unpack.toInt 0 0xffffffffffffffff))).toNat

/-- Whether a numeral without point and power of ten fits 64 bits with a sign. -/
def fitsWord (n : Numeral) : Bool :=
  let m := Numeral.ofDigits n.whole
  if n.negative then m ≤ 0x8000000000000000 else m < 0x8000000000000000

/-- Whether a literal has a value where nobody asks for it. -/
def mayIgnore : NumberLiteral → Bool
  | .decimal n => if n.isWhole then fitsWord n else (double? (.decimal n)).isSome
  | literal => (double? literal).isSome

end Json5Number

namespace DocumentFormat

/-- Whether an array may hold more items than the record has fields. -/
def ignoresExtraItems : DocumentFormat → Bool
  | json => false
  | json5 => true

/-- The single-precision number that a document holds. -/
def single? : DocumentFormat → Document → Option Float32
  | json, .number (.decimal n) => JsonNumber.single? n
  | json5, .number literal => (Json5Number.double? literal).map Single.ofDouble
  | _, _ => none

/-- The count that a document holds. -/
def count? : DocumentFormat → Document → Option Nat
  | json, .number (.decimal n) => JsonNumber.count? n
  | json5, .number literal => (Json5Number.double? literal).map Json5Number.toCount
  | _, _ => none

mutual

/-- Whether all numbers and strings in a JSON5 value have a value. -/
def isSound : Document → Bool
  | .null => true
  | .bool _ => true
  | .number literal => Json5Number.mayIgnore literal
  | .string content => content.isSome
  | .array items => areSound items
  | .object fields => areSoundFields fields

/-- Whether all items are sound. -/
def areSound : List Document → Bool
  | [] => true
  | item :: items => isSound item && areSound items

/-- Whether all keys have content and all values are sound. -/
def areSoundFields : List (Option String × Document) → Bool
  | [] => true
  | (key, value) :: fields => key.isSome && isSound value && areSoundFields fields

end

/-- Whether a value may stand under an unknown key. -/
def mayIgnore : DocumentFormat → Document → Bool
  | json, _ => true
  | json5, value => isSound value

end DocumentFormat

end DiagramLayout
