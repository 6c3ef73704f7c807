import DiagramLayout.CommandLine.Arguments
import DiagramLayout.Json.Printer
import DiagramLayout.Report.Scene
import DiagramLayout.Script.Sample
import DiagramLayout.Settings.File
import DiagramLayout.Text.Quotation

/-!
# Runs

A run loads the settings, reads a script, and writes the scene of the diagram as JSON, or only what
was read when that is asked for or when there is nothing to draw. Where files come from and go to is
left open: a run works with any way to read and write them.
-/

namespace DiagramLayout.CommandLine

/-- What a run writes: a reading alone, or one with its scene. -/
inductive Product
  | reading (reading : Reading)
  | scene (reading : Reading) (scene : Scene)

namespace Product

/-- The JSON value of a product. -/
def report : Product → Json
  | reading r => Report.reading r
  | scene r s => Report.sceneOf r s

/-- The name of a product. -/
def name : Product → String
  | reading _ => "parse result"
  | scene _ _ => "layout"

/-- The text of a product. -/
def text (p : Product) (style : JsonStyle) : String :=
  style.print p.report ++ "\n"

/-- The product of a run on a script. -/
def ofScript (a : Arguments) (settings : Settings) (script : String) : Product :=
  let found := Reading.ofText script
  match if a.parseOnly then none else found.model.activeKind? a.kind with
  | none => reading found
  | some kind => scene found (found.model.scene kind settings)

end Product

/-- Why a run fails. -/
inductive RunError
  | settings (path : String) (cause : SettingsError)
  | unreadable (path : Option String)
  | unwritable (product : String)
deriving DecidableEq

/-- The text of an error. -/
def RunError.message : RunError → String
  | settings path _ => "loading config Some(" ++ quotation path ++ ")"
  | unreadable (some path) => "reading " ++ path
  | unreadable none => "reading stdin"
  | unwritable product => "writing " ++ product

/-- A way to read and write files. Without a path, standard input and standard output are meant. -/
structure Files (m : Type → Type) where
  read : Option String → m (Option String)
  write : Option String → String → m Bool

namespace Arguments

variable {m : Type → Type} [Monad m]

/-- Loads the settings. -/
def loadSettings (a : Arguments) (files : Files m) : ExceptT RunError m Settings :=
  match a.settings with
  | none => return .standard
  | some path => do
    match Settings.ofFile path (← files.read (some path)) with
    | .ok settings => return settings
    | .error cause => throw (.settings path cause)

/-- Reads the script. -/
def readScript (a : Arguments) (files : Files m) : ExceptT RunError m String :=
  match a.sample with
  | some kind => return kind.sample
  | none => do
    match ← files.read a.inputFile? with
    | some script => return script
    | none => throw (.unreadable a.inputFile?)

/-- The way in which the product is printed. -/
def style (a : Arguments) : JsonStyle :=
  if a.pretty then .pretty else .compact

/-- Carries out the arguments. -/
def run (a : Arguments) (files : Files m) : ExceptT RunError m Product := do
  let settings ← a.loadSettings files
  let product := Product.ofScript a settings (← a.readScript files)
  if ← files.write a.output (product.text a.style) then return product
  else throw (.unwritable product.name)

end Arguments

end DiagramLayout.CommandLine
