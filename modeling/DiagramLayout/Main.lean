import DiagramLayout.CommandLine.Run

/-!
# The program

Reads its arguments, carries them out on the files of the machine, and complains on standard error.
-/

namespace DiagramLayout.CommandLine

/-- What the program says about itself when it is asked for help. -/
def helpLines : List String :=
  ["Draws a diagram script and writes the scene as JSON.",
    "",
    "Usage: diagram-layout [OPTIONS]",
    "",
    "  -i, --input FILE       script to read, or - for standard input",
    "  -o, --output FILE      file to write instead of standard output",
    "  -t, --type KIND        auto, usecase, sequence, class or state [default: auto]",
    "  -c, --config FILE      settings, as JSON or JSON5",
    "      --sample KIND      draw a sample instead of reading a script",
    "      --parse-only       write what was read, without a scene",
    "      --pretty           write indented JSON",
    "      --log-level LEVEL  off, error, warn, info, debug or trace [default: warn]",
    "  -h, --help             print this help",
    "  -V, --version          print the version"]

/-- What the program says when it refuses its arguments. -/
def Refusal.text : Refusal → String
  | help => "\n".intercalate helpLines
  | version => "diagram-layout 0.1.0"
  | unknownArgument => "error: unexpected argument found"
  | invalidValue => "error: a value is missing or invalid"
  | conflict => "error: an argument cannot be used with another, or more than once"
  | surplusValue => "error: unexpected value for an argument that takes none"

/-- Whether a refusal answers a request of the user. -/
def Refusal.isRequested : Refusal → Bool
  | help => true
  | version => true
  | _ => false

/-- Whether complaints are shown at a log level; an unknown level counts as the standard one. -/
def Arguments.showsComplaints (a : Arguments) : Bool :=
  !(["off", "error"].contains (a.logLevel.map Char.toLower))

/-- The complaints about the script behind a product. -/
def Product.complaints : Product → List Complaint
  | reading r => r.complaints
  | scene r _ => r.complaints

/-- All that is left in a stream, in front of which `text` was read. -/
partial def readAll (stream : IO.FS.Stream) (text : String) : IO String := do
  let line ← stream.getLine
  if line.isEmpty then return text else readAll stream (text ++ line)

/-- The files of the machine. -/
def machineFiles : Files IO where
  read path := do
    try
      match path with
      | some path => return some (← IO.FS.readFile path)
      | none => return some (← readAll (← IO.getStdin) "")
    catch _ => return none
  write path text := do
    try
      match path with
      | some path => IO.FS.writeFile path text
      | none => IO.print text
      return true
    catch _ => return false

/-- Refuses arguments, and answers with the exit code. -/
def refuse (r : Refusal) : IO UInt32 := do
  if r.isRequested then
    IO.println r.text
    return 0
  else
    IO.eprintln r.text
    return 2

/-- Carries out arguments on the files of the machine, and answers with the exit code. -/
def perform (a : Arguments) : IO UInt32 := do
  match ← (a.run machineFiles).run with
  | .ok product =>
    if a.showsComplaints then
      for complaint in product.complaints do IO.eprintln complaint.message
    return 0
  | .error e =>
    IO.eprintln ("error: " ++ e.message)
    return 1

end DiagramLayout.CommandLine

/-- Reads the arguments and carries them out. -/
def main (words : List String) : IO UInt32 :=
  match DiagramLayout.CommandLine.Arguments.ofWords words with
  | .ok arguments => DiagramLayout.CommandLine.perform arguments
  | .error r => DiagramLayout.CommandLine.refuse r
