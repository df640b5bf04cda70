import UiMarkup.Command.Inspect
import UiMarkup.Console.Table

/-!
The command that shows the themes and style classes of a document with all that they inherit.
-/

namespace UiMarkup.Command

/-- Stands for a value that is not set. -/
def unset : String := "-"

def colorText (c : Option Color) : Printing String :=
  match c with
  | some c => orFail .hex c.toHex
  | none => pure unset

def themeRow (start : Option String) (name : String) (t : Theme) : Printing (List String) := do
  return [← unstyled (name ++ if start = some name then " (global)" else ""), ← unstyled
    (t.parent.getD ""), ← colorText (t.palette.color .primary), ← colorText
      (t.palette.color .background),
    ← colorText (t.palette.color .text), (t.spacing.map Number.briefText).getD unset]

def themeColumns : List Console.Column :=
  [⟨"Name", .left⟩, ⟨"Extends", .left⟩, ⟨"Primary", .left⟩, ⟨"Background", .left⟩, ⟨"Text", .left⟩,
    ⟨"Spacing", .right⟩]

def title (what : String) (count : Nat) : String := what ++ " (" ++ toString count ++ ")"

/-- The entries of a map in the order of their names. -/
def sortedEntries {α : Type} (m : OrderedMap String α) : List (String × α) :=
  m.mergeSort fun p q => p.1 ≤ q.1

def themeTable (start : Option String) (themes : ThemeMap) : Printing Console.Table := do
  let rows ← (sortedEntries themes).mapM fun (name, t) => themeRow start name t
  return ⟨title "Themes" themes.length, themeColumns, rows⟩

def classRow (name : String) (c : StyleClass) : Printing (List String) := do
  let states := c.states.map (fun p => p.1.name) ++ c.combined.map fun p => p.1.text
  return [← unstyled name, ← unstyled (String.intercalate " " c.parents),
    String.intercalate ", " states]

def classColumns : List Console.Column := [⟨"Name", .left⟩, ⟨"Extends", .left⟩, ⟨"States", .left⟩]

def classTable (classes : ClassMap) : Printing Console.Table := do
  let rows ← (sortedEntries classes).mapM fun (name, c) => classRow name c
  return ⟨title "Style classes" classes.length, classColumns, rows⟩

/-- The themes and classes of a document with all that they inherit, or the first error. -/
def resolved (d : Document) : Except Report (ThemeMap × ClassMap) := do
  let themes ← d.themes.resolveAll.mapError ThemeError.report
  let classes ← d.classes.resolveAll.mapError ClassError.report
  return (themes, classes)

def printThemes (start : Option String) (themes : ThemeMap) (classes : ClassMap) :
    Printing Unit := do
  write (← themeTable start themes).printed
  if !classes.isEmpty then write (← classTable classes).printed

def themes (files : Files) (path : Path) : Printing Nat := do
  match ← loadDocument files path [] with
  | none => return failureCode
  | some d =>
    match resolved d with
    | .error report => do
      printError report path
      return failureCode
    | .ok (themes, classes) => do
      printThemes d.startTheme themes classes
      return success

end UiMarkup.Command
