import DiagramLayout.Document.Json5
import DiagramLayout.Settings.Fields

/-!
# Settings files

A settings file is a JSON text, or a JSON5 text when its name ends in `.json5`. What it does not
mention keeps its standard value.
-/

namespace DiagramLayout

namespace DocumentFormat

/-- The document of a text in a format. -/
def read? : DocumentFormat → String → Option Document
  | json, text => Document.ofJson? text
  | json5, text => Document.ofJson5? text

/-- The characters of the last component of a path. -/
def fileName (path : List Char) : List Char :=
  let named := (path.reverse.dropWhile (· == '/'))
  (named.takeWhile (· != '/')).reverse

/-- The characters behind the last point of a file name, none when nothing stands in front of that
point. -/
def extension? (name : List Char) : Option (List Char) :=
  let ending := name.reverse.takeWhile (· != '.')
  match name.reverse.dropWhile (· != '.') with
  | [] => none
  | [_] => none
  | _ :: _ :: _ => some ending.reverse

/-- The format of the file at a path. -/
def ofPath (path : String) : DocumentFormat :=
  match extension? (fileName path.toList) with
  | some ending => if ending.map Char.toLower = ['j', 's', 'o', 'n', '5'] then json5 else json
  | none => json

end DocumentFormat

/-- Why settings cannot be loaded. -/
inductive SettingsError
  | unreadable
  | malformed (format : DocumentFormat)
deriving DecidableEq

namespace Settings

/-- The settings that a text in a format describes. -/
def ofText? (format : DocumentFormat) (text : String) : Option Settings :=
  (format.read? text).bind (Field.readRecord? format Settings.fields Settings.standard)

/-- The settings in a file, given the text that was found there. -/
def ofFile (path : String) (found : Option String) : Except SettingsError Settings :=
  match found with
  | none => .error .unreadable
  | some text =>
    let format := DocumentFormat.ofPath path
    match ofText? format text with
    | some settings => .ok settings
    | none => .error (.malformed format)

end Settings

end DiagramLayout
