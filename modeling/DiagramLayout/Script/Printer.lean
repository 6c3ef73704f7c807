import DiagramLayout.Script.Line

/-!
# Printing statements

The line that writes a statement, with single blanks between its parts, and the text that writes several,
one on each line. A statement is plain when it opens no class and what it names is written in letters,
digits and underscores of ASCII.
-/

namespace DiagramLayout.Statement

/-- The characters of an arrow. -/
def arrowChars (isAsync : Bool) : List Char :=
  if isAsync then ['-', '-', '>'] else ['-', '>']

/-- The members of a class with a semicolon and a blank between them. -/
def memberChars : List (List Char) → List Char
  | [] => []
  | [member] => member
  | member :: rest => member ++ ';' :: ' ' :: memberChars rest

/-- The line that writes a statement. -/
def toLine : Statement → List Char
  | inlineClass name members =>
    "class ".toList ++ name.toList ++ [' ', '\x7b', ' '] ++ memberChars members ++ [' ', '\x7d']
  | openClass name => "class ".toList ++ name.toList ++ [' ', '\x7b']
  | relation kind left right => left.toList ++ ' ' :: kind.token ++ ' ' :: right.toList
  | activation command participant => command.name.toList ++ ' ' :: participant.toList
  | association actor useCase isAsync =>
    actor.toList ++ ' ' :: arrowChars isAsync ++ [' ', '('] ++ useCase.toList ++ [')']
  | transition source target label isAsync =>
    '[' :: source.toList ++ [']', ' '] ++ arrowChars isAsync ++ [' ', '['] ++ target.toList
      ++ ']' :: (if label.isEmpty then [] else [':', ' '] ++ label.toList)
  | message sender receiver text isAsync =>
    sender.toList ++ ' ' :: arrowChars isAsync ++ ' ' :: receiver.toList ++ [':', ' ']
      ++ text.toList

end DiagramLayout.Statement

namespace DiagramLayout

namespace Script

/-- The text that writes statements, one on each line. -/
def print (script : List Statement) : String :=
  String.ofList (unlines (script.map Statement.toLine))

/-- Whether the character is a letter or a digit of ASCII or an underscore. -/
def isPlainChar (c : Char) : Bool :=
  c.isAlphanum || c == '_'

/-- Whether the text is a name in plain characters that is not the word for a command in any case. -/
def isPlainName (cs : List Char) : Bool :=
  !cs.isEmpty && cs.all isPlainChar && cs.map Char.toLower != "activate".toList
    && cs.map Char.toLower != "deactivate".toList

/-- Whether the text is a plain name, or one with a pair of parentheses behind it. -/
def isPlainMember (cs : List Char) : Bool :=
  isPlainName cs || (cs.drop (cs.length - 2) == ['(', ')'] && isPlainName (cs.take (cs.length - 2)))

/-- Whether the text is a plain name or the name of the pseudo state. -/
def isPlainState (cs : List Char) : Bool :=
  isPlainName cs || cs == ['*']

end Script

/-- Whether the statement is plain. -/
def Statement.isPlain : Statement → Bool
  | inlineClass name members =>
    Script.isPlainName name.toList && members.all Script.isPlainMember
  | openClass _ => false
  | relation _ left right => Script.isPlainName left.toList && Script.isPlainName right.toList
  | activation _ participant => Script.isPlainName participant.toList
  | association actor useCase _ =>
    Script.isPlainName actor.toList && Script.isPlainName useCase.toList
  | transition source target label _ =>
    Script.isPlainState source.toList && Script.isPlainState target.toList
      && (label.isEmpty || Script.isPlainName label.toList)
  | message sender receiver text _ =>
    Script.isPlainName sender.toList && Script.isPlainName receiver.toList
      && Script.isPlainName text.toList

end DiagramLayout
