import DiagramLayout.Diagram.Kind

/-!
# Command line arguments

Arguments are read from left to right. An option has a long name and perhaps a letter; its value is
attached to it or is the next argument. A value that is an argument of its own is looked at when the
next option comes or when all arguments are read, so that an unknown argument behind it is
reported before it. Every option and every switch may be given once.
-/

namespace DiagramLayout.CommandLine

/-- Why arguments do not lead to a run. Two of the reasons are requests for information. -/
inductive Refusal
  | help
  | version
  | unknownArgument
  | invalidValue
  | conflict
  | surplusValue
deriving DecidableEq

/-- An option, which takes a value. -/
inductive Valued
  | input
  | output
  | kind
  | settings
  | sample
  | logLevel
deriving DecidableEq

/-- A switch, which takes none. -/
inductive Switch
  | parseOnly
  | pretty
  | help
  | version
deriving DecidableEq

/-- What a name on the command line stands for. -/
inductive Parameter
  | valued (option : Valued)
  | switch (switch : Switch)
deriving DecidableEq

namespace Parameter

/-- The long names. -/
def longNames : List (String × Parameter) :=
  [("input", valued .input), ("output", valued .output), ("type", valued .kind),
    ("config", valued .settings), ("sample", valued .sample), ("log-level", valued .logLevel),
    ("parse-only", switch .parseOnly), ("pretty", switch .pretty), ("help", switch .help),
    ("version", switch .version)]

/-- The letters. -/
def letters : List (Char × Parameter) :=
  [('i', valued .input), ('o', valued .output), ('t', valued .kind), ('c', valued .settings),
    ('h', switch .help), ('V', switch .version)]

end Parameter

/-- Arguments, without those that were not given. The kind is `none` inside for automatic
detection. -/
structure Given where
  input : Option String := none
  output : Option String := none
  kind : Option (Option DiagramKind) := none
  settings : Option String := none
  sample : Option DiagramKind := none
  logLevel : Option String := none
  parseOnly : Bool := false
  pretty : Bool := false
deriving DecidableEq

namespace Given

/-- The path that a value names. -/
def path (value : String) : Except Refusal String :=
  if value.isEmpty then .error .invalidValue else .ok value

/-- The kind that a value names, in exactly the word that reports use. -/
def kindOf (value : String) : Except Refusal DiagramKind :=
  match DiagramKind.all.find? fun k => k.name == value with
  | some k => .ok k
  | none => .error .invalidValue

/-- The kind that a value names, or automatic detection. -/
def kindOrAuto (value : String) : Except Refusal (Option DiagramKind) :=
  if value = "auto" then .ok none else (kindOf value).map some

/-- Whether an option was given. -/
def has (g : Given) : Valued → Bool
  | .input => g.input.isSome
  | .output => g.output.isSome
  | .kind => g.kind.isSome
  | .settings => g.settings.isSome
  | .sample => g.sample.isSome
  | .logLevel => g.logLevel.isSome

/-- Gives an option a value. -/
def setTo (g : Given) (option : Valued) (value : String) : Except Refusal Given :=
  match option with
  | .input => (path value).map fun p => { g with input := some p }
  | .output => (path value).map fun p => { g with output := some p }
  | .kind => (kindOrAuto value).map fun k => { g with kind := some k }
  | .settings => (path value).map fun p => { g with settings := some p }
  | .sample => (kindOf value).map fun k => { g with sample := some k }
  | .logLevel => .ok { g with logLevel := some value }

/-- Gives an option a value, unless it has one. -/
def set (g : Given) (option : Valued) (value : String) : Except Refusal Given :=
  if g.has option then .error .conflict else g.setTo option value

/-- Turns a switch on, unless it is on. -/
def turnOn (g : Given) : Switch → Except Refusal Given
  | .parseOnly => if g.parseOnly then .error .conflict else .ok { g with parseOnly := true }
  | .pretty => if g.pretty then .error .conflict else .ok { g with pretty := true }
  | .help => .error .help
  | .version => .error .version

end Given

/-- The arguments read so far, and the option whose value has not been looked at, with that value
if it was met. -/
structure Progress where
  given : Given
  pending : Option (Valued × Option String)
deriving DecidableEq

namespace Progress

/-- Looks at the value of the pending option. -/
def settle (p : Progress) : Except Refusal Given :=
  match p.pending with
  | none => .ok p.given
  | some (option, some value) => p.given.set option value
  | some (_, none) => .error .invalidValue

/-- Takes an option, with the value attached to it if there is one. -/
def takeOption (p : Progress) (option : Valued) (attached : Option String) :
    Except Refusal Progress := do
  let given ← p.settle
  match attached with
  | some value => return ⟨← given.set option value, none⟩
  | none => return ⟨given, some (option, none)⟩

/-- Takes a switch. -/
def takeSwitch (p : Progress) (switch : Switch) : Except Refusal Progress := do
  let given ← p.settle
  return ⟨← given.turnOn switch, none⟩

/-- Takes an argument that begins with two hyphens, given what is behind them. -/
def takeLong (p : Progress) (text : List Char) : Except Refusal Progress :=
  let name := String.ofList (text.takeWhile (· != '='))
  let attached :=
    match text.dropWhile (· != '=') with
    | [] => none
    | _ :: value => some (String.ofList value)
  match Parameter.longNames.lookup name, attached with
  | none, _ => .error .unknownArgument
  | some (.valued option), _ => p.takeOption option attached
  | some (.switch _), some _ => .error .surplusValue
  | some (.switch switch), none => p.takeSwitch switch

/-- The value attached to a letter: what is behind it, without an equals sign in front. -/
def attachedToLetter : List Char → Option String
  | [] => none
  | '=' :: value => some (String.ofList value)
  | value => some (String.ofList value)

/-- Takes an argument that begins with one hyphen, given the letters behind it. -/
def takeLetters (p : Progress) : List Char → Except Refusal Progress
  | [] => .ok p
  | letter :: rest =>
    match Parameter.letters.lookup letter with
    | none => .error .unknownArgument
    | some (.valued option) => p.takeOption option (attachedToLetter rest)
    | some (.switch switch) => do takeLetters (← p.takeSwitch switch) rest

/-- Takes an argument that is no option: the value of the pending one. -/
def takeValue (p : Progress) (value : String) : Except Refusal Progress :=
  match p.pending with
  | some (option, none) => .ok ⟨p.given, some (option, some value)⟩
  | _ => .error .unknownArgument

/-- Takes one argument. -/
def take (p : Progress) (argument : String) : Except Refusal Progress :=
  match argument.toList with
  | '-' :: '-' :: text => p.takeLong text
  | '-' :: letter :: rest => p.takeLetters (letter :: rest)
  | _ => p.takeValue argument

/-- Takes all arguments. Behind two hyphens alone nothing may follow. -/
def takeAll (p : Progress) : List String → Except Refusal Progress
  | [] => .ok p
  | argument :: rest =>
    if argument = "--" then (if rest.isEmpty then .ok p else .error .unknownArgument)
    else do takeAll (← p.take argument) rest

end Progress

/-- The arguments of a run. Without a kind, the kind is detected; without an input, or with a hyphen
for it, standard input is read; without an output, standard output is written. -/
structure Arguments where
  input : Option String
  output : Option String
  kind : Option DiagramKind
  settings : Option String
  sample : Option DiagramKind
  parseOnly : Bool
  pretty : Bool
  logLevel : String
deriving DecidableEq

namespace Arguments

/-- The arguments with the standard values of those not given. A sample and an input exclude each
other. -/
def complete (g : Given) : Except Refusal Arguments :=
  if g.sample.isSome && g.input.isSome then .error .conflict
  else
    .ok ⟨g.input, g.output, g.kind.getD none, g.settings, g.sample, g.parseOnly, g.pretty,
      g.logLevel.getD "warn"⟩

/-- The arguments that a list of words gives. -/
def ofWords (words : List String) : Except Refusal Arguments := do
  let progress ← Progress.takeAll ⟨{}, none⟩ words
  complete (← progress.settle)

/-- Whether an input stands for standard input: a hyphen, also with slashes and points behind it
that do not lead anywhere. -/
def isHyphen (path : String) : Bool :=
  match path.splitOn "/" with
  | [] => false
  | first :: others => first == "-" && others.all fun part => part.isEmpty || part == "."

/-- The file that is read, none for standard input. -/
def inputFile? (a : Arguments) : Option String :=
  a.input.filter fun path => !isHyphen path

/-- Whether the run reads standard input. -/
def readsStandardInput (a : Arguments) : Bool :=
  a.sample.isNone && a.inputFile?.isNone

end Arguments

end DiagramLayout.CommandLine
