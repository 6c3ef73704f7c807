import DiagramLayout.Text.Blank

/-!
# The kinds of diagrams

There are four kinds of diagrams. A kind is named by a word in any case, with blanks around it
allowed.
-/

namespace DiagramLayout

/-- The kind of a diagram. -/
inductive DiagramKind
  | useCase
  | sequence
  | classes
  | state
deriving DecidableEq

namespace DiagramKind

/-- All kinds in the order in which they are scored and listed. -/
def all : List DiagramKind :=
  [useCase, sequence, classes, state]

/-- The name of a kind. -/
def name : DiagramKind → String
  | useCase => "usecase"
  | sequence => "sequence"
  | classes => "class"
  | state => "state"

/-- The words for each kind. -/
def words : List (String × DiagramKind) :=
  [("usecase", useCase), ("use-case", useCase), ("use_case", useCase), ("sequence", sequence),
    ("class", classes), ("state", state)]

/-- The kind that a word names. -/
def ofWord? (word : String) : Option DiagramKind :=
  words.lookup (String.ofList ((trim word.toList).map Char.toLower))

end DiagramKind

/-- The error of a word that names no kind. -/
structure UnknownKind where
  word : String

/-- The text of the error. -/
def UnknownKind.message (e : UnknownKind) : String :=
  "unknown diagram type \"" ++ e.word ++ "\" (expected usecase, sequence, class or state)"

/-- The kind that a word names, or the error. -/
def DiagramKind.ofWord (word : String) : Except UnknownKind DiagramKind :=
  match ofWord? word with
  | some kind => .ok kind
  | none => .error ⟨word⟩

end DiagramLayout
