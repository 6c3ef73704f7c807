import DiagramLayout.Decimal.Shortest

/-!
# JSON values

The values that a report is made of. Objects keep their fields in the order given, and a
single-precision number becomes its shortest numeral, or null when it is not finite.
-/

namespace DiagramLayout

/-- A JSON value. -/
inductive Json
  | null
  | bool (value : Bool)
  | number (value : Numeral)
  | string (value : String)
  | array (items : List Json)
  | object (fields : List (String × Json))

namespace Json

/-- A natural number. -/
def nat (n : Nat) : Json :=
  number (Numeral.ofNat n)

/-- A single-precision number, null when it is not finite. -/
def single (x : Float32) : Json :=
  match Numeral.ofSingle? x with
  | some n => number n
  | none => null

/-- An array of strings. -/
def strings (items : List String) : Json :=
  array (items.map string)

/-- An object field that is left out when there is no value. -/
def optional (name : String) (value : Option Json) : List (String × Json) :=
  match value with
  | some v => [(name, v)]
  | none => []

/-- An object field that is left out when the array is empty. -/
def unlessEmpty (name : String) (items : List Json) : List (String × Json) :=
  if items.isEmpty then [] else [(name, array items)]

/-- A string, or null. -/
def stringOrNull : Option String → Json
  | some s => string s
  | none => null

end Json

end DiagramLayout
