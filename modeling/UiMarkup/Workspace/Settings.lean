import UiMarkup.Data.Json
import UiMarkup.Data.Toml.Document
import UiMarkup.Lint.Finding
import UiMarkup.Workspace.Files

/-!
Settings of a workspace: how its documents are checked, which files are documents, and
which widgets the application brings along. They come from a file at the root of the
workspace or from one that is named.
-/

namespace UiMarkup

structure Workspace where
  root : Path
  extensions : List String := [".vellum", ".xml"]
  exclude : List String := []
  lint : Lint.Settings := {}
  custom : List String := []
  source : Option Path := none

/-- Why settings cannot be read. -/
inductive SettingsFault
  | toml (fault : Toml.Fault)
  | json (fault : Json.Fault)
  | notTable (found : Datum)
  | noFile (path : Path)

namespace Workspace

/-- Whether a value has fields to look up; nothing at all counts as no fields. -/
def section? (d : Datum) (key : String) : Except SettingsFault Datum :=
  match d with
  | .table _ =>
    match (d.get? key).getD .null with
    | .table fields => .ok (.table fields)
    | value => if value.isTrue then .error (.notTable value) else .ok (.table [])
  | value => .error (.notTable value)

/-- A list of texts, or one text on its own. -/
def texts : Datum → List String
  | .list items => items.map Datum.text
  | .string s => [s]
  | _ => []

def field (d : Datum) (key : String) : Datum := (d.get? key).getD .null

/-- The handlers of the application, unless nothing is said about them. -/
def handlersOf : Datum → Option (List String)
  | .null => none
  | d => some (texts d)

/-- The settings that a file's data make up. -/
def ofData (root source : Path) (d : Datum) : Except SettingsFault Workspace := do
  let check ← section? d "check"
  let widgets ← section? d "widgets"
  let start : Workspace := { root }
  let extensions := texts (field check "extensions")
  return {
    root
    extensions := if extensions.isEmpty then start.extensions else extensions
    exclude := texts (field check "exclude")
    lint := {
      strict := (field check "strict").isTrue
      requireDeclaration := (field check "require_xml_declaration").isTrue
      handlers := handlersOf (field check "handlers") }
    custom := texts (field widgets "custom")
    source := some source }

/-- The names of settings files, in the order in which they are looked for. -/
def fileNames : List String := ["vellum.toml", ".vellumrc"]

/-- The settings file: the named one if it is there, or else the first one at the root. -/
def locate? (files : Files) (root : Path) (named : Option Path) : Option Path :=
  match named with
  | some path => if files.has path then some path else none
  | none => (fileNames.map root.child).find? files.has

def readData (path : Path) (bytes : List UInt8) : Except SettingsFault Datum :=
  let text := Text.decodeUtf8 bytes
  if path.suffix = ".toml" then (Toml.parse text).mapError .toml
  else (Json.parse text).mapError .json

/-- The workspace at a root. -/
def load (files : Files) (root : Path) (named : Option Path) : Except SettingsFault Workspace :=
  match locate? files root.settled named with
  | none => .ok { root := root.settled }
  | some path =>
    match files.bytes? path with
    | none => .error (.noFile path)
    | some bytes => do ofData root.settled path (← readData path bytes)

/-- Settings that win over those of a file. -/
structure Overrides where
  strict : Option Bool := none
  requireDeclaration : Option Bool := none
  custom : List String := []

/-- Adds a name that is not there yet. -/
def addName (names : List String) (name : String) : List String :=
  if names.contains name then names else names ++ [name]

def override (w : Workspace) (o : Overrides) : Workspace :=
  { w with
    lint := { w.lint with
      strict := o.strict.getD w.lint.strict
      requireDeclaration := o.requireDeclaration.getD w.lint.requireDeclaration }
    custom := o.custom.foldl addName w.custom }

end Workspace

/-- The message of a fault, where it has one. -/
def SettingsFault.message? : SettingsFault → Option String
  | .toml (.number fault) => some fault.message
  | .json (.number fault) => some fault.message
  | .toml .malformed => none
  | .json .malformed => none
  | .notTable found => some ("'" ++ found.kindName ++ "' object has no attribute 'get'")
  | .noFile path => some ("[Errno 21] Is a directory: " ++ Datum.quotedText path.text)

end UiMarkup
