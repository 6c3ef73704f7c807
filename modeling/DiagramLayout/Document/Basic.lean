import DiagramLayout.Decimal.Numeral

/-!
# Documents

A document is what a JSON or JSON5 text says before it is known what it is for: numbers stay as they
are written, objects keep repeated keys, and a string has no content when its escapes name half of a
surrogate pair.
-/

namespace DiagramLayout

/-- The sign written in front of a number. -/
inductive WrittenSign
  | absent
  | plus
  | minus
deriving DecidableEq

/-- A number as it is written. -/
inductive NumberLiteral
  | decimal (numeral : Numeral)
  | hexadecimal (sign : WrittenSign) (digits : List Nat)
  | infinity (sign : WrittenSign)
  | notANumber (sign : WrittenSign)
deriving DecidableEq

/-- The content of a text. -/
inductive Document
  | null
  | bool (value : Bool)
  | number (literal : NumberLiteral)
  | string (content : Option String)
  | array (items : List Document)
  | object (fields : List (Option String × Document))

namespace Document

/-- The value of a field, the last one when it is repeated. -/
def field? (name : String) : Document → Option Document
  | .object fields => (fields.reverse.find? fun f => f.1 == some name).map Prod.snd
  | _ => none

end Document

end DiagramLayout
