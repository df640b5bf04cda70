import UiMarkup.OrderedMap
import UiMarkup.Workspace.Path

/-!
Files as they were found: their paths from the working directory and their bytes. A directory is
there if something is below it, or if it is listed.
-/

namespace UiMarkup

inductive Entry
  | file (bytes : List UInt8)
  | directory

/-- Entries under settled paths. -/
structure Files where
  entries : OrderedMap Path Entry

inductive EntryKind
  | file | directory
  deriving DecidableEq, Repr

def Entry.kind : Entry → EntryKind
  | .file _ => .file
  | .directory => .directory

namespace Files

def ofList (l : List (String × Entry)) : Files :=
  ⟨OrderedMap.putAll [] (l.map fun (name, entry) => ((Path.ofText name).settled, entry))⟩

/-- The entry under a settled path. -/
def entry? (t : Files) (p : Path) : Option Entry := t.entries.get? p

/-- Something is at or below a settled path. -/
def reaches (t : Files) (p : Path) : Bool := t.entries.any fun e => (Path.below? p e.1).isSome

/-- What is at a settled path. The working directory is always there. -/
def kindAt? (t : Files) (p : Path) : Option EntryKind :=
  match t.entry? p with
  | some e => some e.kind
  | none => if p = .here || t.reaches p then some .directory else none

/-- One component further, from a directory. -/
def step? (t : Files) (p : Path) (part : String) : Option Path :=
  if t.kindAt? p = some .directory then some (p.step part) else none

/-- The settled path that a text leads to. Every component, be it a silent one, needs
a directory before it. -/
def follow? (t : Files) (text : String) : Option Path :=
  if text.isEmpty then none
  else
    let start : Path := { isAbsolute := Path.isRooted text }
    let parts := if Path.isRooted text then (Path.components text).drop 1 else Path.components text
    parts.foldlM t.step? start

/-- What a text leads to. -/
def kind? (t : Files) (text : String) : Option EntryKind := (t.follow? text).bind t.kindAt?

def isFile (t : Files) (p : Path) : Bool := t.kind? p.text = some .file

def isDirectory (t : Files) (p : Path) : Bool := t.kind? p.text = some .directory

def has (t : Files) (p : Path) : Bool := (t.kind? p.text).isSome

/-- The bytes of a file. -/
def bytes? (t : Files) (p : Path) : Option (List UInt8) :=
  match (t.follow? p.text).bind t.entry? with
  | some (.file bytes) => some bytes
  | _ => none

/-- The components that lead from a directory to an entry below it, if the entry is a file. -/
def fileBelow? (directory : Path) : Path × Entry → Option (List String)
  | (p, .file _) => Path.below? directory p
  | (_, .directory) => none

/-- All files below a directory, as paths that begin with its own. -/
def filesBelow (t : Files) (directory : Path) : List Path :=
  if t.isDirectory directory then
    (t.entries.filterMap (fileBelow? directory.settled)).map directory.append
  else []

end Files
end UiMarkup
