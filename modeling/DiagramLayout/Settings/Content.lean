import DiagramLayout.Json.Basic

/-!
# The content of records

What a record of settings holds, whatever its type is: numbers, counts, and records of its own, each
under a name.
-/

namespace DiagramLayout

/-- What a record or a field of a record holds. -/
inductive Content
  | single (x : Float32)
  | count (n : Nat)
  | record (fields : List (String × Content))

namespace Content

mutual

/-- The content as a JSON value. -/
def toJson : Content → Json
  | single x => .single x
  | count n => .nat n
  | record fields => .object (fieldsToJson fields)

/-- The fields of a record as those of a JSON object. -/
def fieldsToJson : List (String × Content) → List (String × Json)
  | [] => []
  | (name, content) :: fields => (name, toJson content) :: fieldsToJson fields

end

end Content

end DiagramLayout
