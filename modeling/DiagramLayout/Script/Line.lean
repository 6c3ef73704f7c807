import DiagramLayout.Diagram.Model
import DiagramLayout.Text.Blank

/-!
# Lines of a script and what they say

A script is read line by line. The normal form of a line has no comment and no blanks around it: a
comment starts at two slashes anywhere, or at a hash behind a blank. A statement is what a single line
says. A class may be written on one line or opened, in which case members follow on lines of their own
until the class is closed.
-/

namespace DiagramLayout

/-- What a line says while no class is open. -/
inductive Statement
  | inlineClass (name : String) (members : List (List Char))
  | openClass (name : String)
  | relation (kind : RelationKind) (left right : String)
  | activation (command : ActivationCommand) (participant : String)
  | association (actor useCase : String) (isAsync : Bool)
  | transition (source target label : String) (isAsync : Bool)
  | message (sender receiver text : String) (isAsync : Bool)
deriving DecidableEq

/-- What a line says while a class is open. -/
inductive BodyLine
  | member (text : List Char)
  | last (text : List Char)
deriving DecidableEq

namespace Script

/-- The pieces of a text between its line feeds. -/
def lines : List Char → List (List Char)
  | [] => [[]]
  | '\n' :: rest => [] :: lines rest
  | c :: rest =>
    match lines rest with
    | [] => [[c]]
    | line :: others => (c :: line) :: others

/-- The text of some lines, with a line feed between two of them. -/
def unlines (ls : List (List Char)) : List Char :=
  ['\n'].intercalate ls

/-- The characters in front of the first two slashes. -/
def beforeSlashes : List Char → List Char
  | '/' :: '/' :: _ => []
  | c :: rest => c :: beforeSlashes rest
  | [] => []

/-- The characters in front of the first hash behind a blank. -/
def beforeHash : List Char → List Char
  | [] => []
  | [c] => [c]
  | c :: d :: rest => if isBlank c && d == '#' then [c] else c :: beforeHash (d :: rest)

/-- The normal form of a line. -/
def normalize (line : List Char) : List Char :=
  trim (beforeHash (beforeSlashes line))

end Script

end DiagramLayout
