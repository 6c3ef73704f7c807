import DiagramLayout.Document.Number
import DiagramLayout.Settings.Content

/-!
# Fields of records

A record is described by the list of its fields, each with a name, a way to read it from a document
into a record and what it holds of a record. The same list serves both for reading and for writing.

A record is read from an object, or from an array that holds its fields in order; what is absent
keeps its value. An unknown key is passed over, a known one may not be repeated. JSON has no room
for more items than there are fields, JSON5 does not look at them.
-/

namespace DiagramLayout

/-- A field of a record: its name, how a document sets it and what it holds. -/
structure Field (σ : Type) where
  name : String
  read? : DocumentFormat → Document → σ → Option σ
  content : σ → Content

namespace Field

variable {σ τ : Type}

/-- Sets the fields from the items of an array. -/
def readItems? (format : DocumentFormat) : List (Field σ) → List Document → σ → Option σ
  | _, [], s => some s
  | [], _ :: _, s => if format.ignoresExtraItems then some s else none
  | field :: fields, item :: items, s =>
    (field.read? format item s).bind (readItems? format fields items)

/-- Sets the fields that an object names; `seen` are the names met before. -/
def readEntries? (format : DocumentFormat) (fields : List (Field σ)) :
    List String → List (Option String × Document) → σ → Option σ
  | _, [], s => some s
  | _, (none, _) :: _, _ => none
  | seen, (some name, value) :: entries, s =>
    match fields.find? fun f => f.name == name with
    | none =>
      if format.mayIgnore value then readEntries? format fields seen entries s else none
    | some field =>
      if name ∈ seen then none
      else (field.read? format value s).bind (readEntries? format fields (name :: seen) entries)

/-- Sets the fields of a record that a document gives. -/
def readRecord? (format : DocumentFormat) (fields : List (Field σ)) (initial : σ) :
    Document → Option σ
  | .array items => readItems? format fields items initial
  | .object entries => readEntries? format fields [] entries initial
  | _ => none

/-- What all fields of a record hold. -/
def contentOf (fields : List (Field σ)) (s : σ) : Content :=
  .record (fields.map fun f => (f.name, f.content s))

/-- Writes all fields of a record. -/
def writeRecord (fields : List (Field σ)) (s : σ) : Json :=
  (contentOf fields s).toJson

/-- A field that holds a single-precision number. -/
def single (name : String) (get : σ → Float32) (set : σ → Float32 → σ) : Field σ where
  name := name
  read? format value s := (format.single? value).map (set s)
  content s := .single (get s)

/-- A field that holds a natural number below `2 ^ 64`. -/
def count (name : String) (get : σ → Nat) (set : σ → Nat → σ) : Field σ where
  name := name
  read? format value s := (format.count? value).map (set s)
  content s := .count (get s)

/-- A field that holds a record. What a document leaves out of it is taken from `initial`. -/
def record (name : String) (fields : List (Field τ)) (initial : τ) (get : σ → τ)
    (set : σ → τ → σ) : Field σ where
  name := name
  read? format value s := (readRecord? format fields initial value).map (set s)
  content s := contentOf fields (get s)

end Field

end DiagramLayout
