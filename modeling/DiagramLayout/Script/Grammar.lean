import DiagramLayout.Script.Line
import DiagramLayout.Text.Blank

/-!
# The grammar of lines

Each form of statement has a reader on the characters of a normal line. Where a line could be read
in several ways, names are as short as possible, and the blanks behind the arrow of a message stand
for the receiver only when no other is found. The forms are tried in a fixed order, and the
first that fits decides.
-/

namespace DiagramLayout.Script

/-! ### Parts of lines -/

/-- Whether a character may stand in the name of a class. -/
def isNameChar (c : Char) : Bool :=
  c.isAlphanum || c == '_' || (0x600 ≤ c.toNat && c.toNat ≤ 0x6ff)

/-- The class name in front, as long as possible, and what is behind it. -/
def className? (cs : List Char) : Option (List Char × List Char) :=
  match cs.span isNameChar with
  | ([], _) => none
  | found => some found

/-- An arrow in front: whether it is the asynchronous one, and what is behind it. -/
def arrow? : List Char → Option (Bool × List Char)
  | '-' :: '-' :: '>' :: rest => some (true, rest)
  | '-' :: '>' :: rest => some (false, rest)
  | _ => none

/-- The characters in front of the last one, if that is `c`. -/
def beforeLast? (c : Char) (cs : List Char) : Option (List Char) :=
  if cs.getLast? = some c then some cs.dropLast else none

/-- The shortest start, at least one character long, behind which `p` can read, with what it
reads. -/
def shortest? {α : Type} (p : List Char → Option α) : List Char → Option (List Char × α)
  | [] => none
  | c :: rest =>
    match p rest with
    | some a => some ([c], a)
    | none => (shortest? p rest).map fun (start, a) => (c :: start, a)

/-- Whether a line has an asynchronous arrow anywhere. -/
def hasAsyncArrow : List Char → Bool
  | '-' :: '-' :: '>' :: _ => true
  | _ :: rest => hasAsyncArrow rest
  | [] => false

/-! ### Classes and relations -/

/-- The name of a class behind the word `class`, and what is behind the blanks after it. -/
def classHead? (cs : List Char) : Option (List Char × List Char) := do
  let rest ← after? ['c', 'l', 'a', 's', 's'] cs
  let start := dropBlanks rest
  if start.length = rest.length then none
  let (name, rest) ← className? start
  return (name, dropBlanks rest)

/-- The pieces of a text between semicolons. -/
def splitMembers : List Char → List (List Char)
  | [] => [[]]
  | ';' :: rest => [] :: splitMembers rest
  | c :: rest =>
    match splitMembers rest with
    | [] => [[c]]
    | member :: others => (c :: member) :: others

/-- A class on one line, its members in braces. -/
def inlineClass? (cs : List Char) : Option Statement := do
  let (name, rest) ← classHead? cs
  let rest ← after? ['\x7b'] rest
  let body ← beforeLast? '\x7d' rest
  return .inlineClass (String.ofList name) (splitMembers body)

/-- A class that is opened. -/
def openClass? (cs : List Char) : Option Statement := do
  let (name, rest) ← classHead? cs
  if rest = ['\x7b'] then some (.openClass (String.ofList name)) else none

/-- The sort of a relation written in front, and what is behind it. -/
def relationKind? (cs : List Char) : Option (RelationKind × List Char) :=
  RelationKind.all.findSome? fun kind => (after? kind.token cs).map fun rest => (kind, rest)

/-- A relation between two classes. -/
def relation? (cs : List Char) : Option Statement := do
  let (left, rest) ← className? cs
  let (kind, rest) ← relationKind? (dropBlanks rest)
  let (right, rest) ← className? (dropBlanks rest)
  if rest.isEmpty then some (.relation kind (String.ofList left) (String.ofList right)) else none

/-! ### Activations -/

/-- What stands behind a word in front, written in any case. -/
def afterAnyCase? : List Char → List Char → Option (List Char)
  | [], cs => some cs
  | _ :: _, [] => none
  | w :: word, c :: cs => if w = c.toLower then afterAnyCase? word cs else none

/-- The command in front, and what is behind it. -/
def command? (cs : List Char) : Option (ActivationCommand × List Char) :=
  match afterAnyCase? ActivationCommand.activate.name.toList cs with
  | some rest => some (.activate, rest)
  | none =>
    (afterAnyCase? ActivationCommand.deactivate.name.toList cs).map fun rest => (.deactivate, rest)

/-- A command to a participant. -/
def activation? (cs : List Char) : Option Statement := do
  let (command, rest) ← command? cs
  match rest with
  | [] => none
  | [_] => none
  | c :: rest => if isBlank c then some (.activation command (trimmed rest)) else none

/-! ### Associations, transitions and messages -/

/-- The use case in parentheses behind an actor. -/
def useCaseTail? (cs : List Char) : Option (List Char) := do
  let (_, rest) ← arrow? (dropBlanks cs)
  let rest ← after? ['('] (dropBlanks rest)
  let useCase ← beforeLast? ')' rest
  if useCase.isEmpty then none else some useCase

/-- An actor and a use case. -/
def association? (cs : List Char) : Option Statement :=
  (shortest? useCaseTail? cs).map fun (actor, useCase) =>
    .association (trimmed actor) (trimmed useCase) (hasAsyncArrow cs)

/-- The label behind a transition: a text behind a colon, or nothing at all. -/
def transitionLabel? (cs : List Char) : Option (List Char) :=
  match dropBlanks cs with
  | ':' :: c :: rest => some (c :: rest)
  | _ => if cs.isEmpty then some [] else none

/-- The end of the target and the label behind it. -/
def targetEnd? (cs : List Char) : Option (List Char) :=
  (after? [']'] cs).bind transitionLabel?

/-- The target and the label behind the source of a transition. -/
def transitionTail? (cs : List Char) : Option (List Char × List Char) := do
  let rest ← after? [']'] cs
  let (_, rest) ← arrow? (dropBlanks rest)
  let rest ← after? ['['] (dropBlanks rest)
  shortest? targetEnd? rest

/-- Two states in brackets, and a label. -/
def transition? (cs : List Char) : Option Statement := do
  let rest ← after? ['['] cs
  let (source, target, label) ← shortest? transitionTail? rest
  return .transition (trimmed source) (trimmed target) (trimmed label) (hasAsyncArrow cs)

/-- What stands in front of the first colon, and the text behind it, which is not empty. -/
def splitAtColon? : List Char → Option (List Char × List Char)
  | [] => none
  | [_] => none
  | c :: d :: rest =>
    if c = ':' then some ([], d :: rest)
    else (splitAtColon? (d :: rest)).map fun (start, text) => (c :: start, text)

/-- The receiver and the text of a message behind its arrow. The receiver begins behind the blanks
and has at least one character, which may be a colon. Where that leaves no colon to split at, the
blanks themselves are the receiver, an empty one. -/
def receiver? (cs : List Char) : Option (List Char × List Char) :=
  match dropBlanks cs with
  | [] => none
  | c :: rest =>
    match splitAtColon? rest with
    | some (start, text) => some (c :: start, text)
    | none => if cs.head?.any isBlank then splitAtColon? (c :: rest) else none

/-- The arrow, the receiver and the text behind the sender of a message. -/
def messageTail? (cs : List Char) : Option (Bool × List Char × List Char) := do
  let (isAsync, rest) ← arrow? (dropBlanks cs)
  let (receiver, text) ← receiver? rest
  return (isAsync, receiver, text)

/-- A message from one participant to another. -/
def message? (cs : List Char) : Option Statement :=
  (shortest? messageTail? cs).map fun (sender, isAsync, receiver, text) =>
    .message (trimmed sender) (trimmed receiver) (trimmed text) isAsync

/-! ### Lines -/

/-- The forms of statements in the order in which they are tried. -/
def forms : List (List Char → Option Statement) :=
  [inlineClass?, openClass?, relation?, activation?, association?, transition?, message?]

end DiagramLayout.Script

namespace DiagramLayout

/-- What a normal line says while no class is open. -/
def Statement.ofLine? (line : List Char) : Option Statement :=
  Script.forms.findSome? fun form => form line

/-- What a normal line says while a class is open: a closing brace ends the class, and what stands
in front of it is a member. -/
def BodyLine.ofLine (line : List Char) : BodyLine :=
  if line.contains '\x7d' then .last (line.takeWhile (· ≠ '\x7d')) else .member line

end DiagramLayout
