import UiMarkup.Command.Arguments
import UiMarkup.Command.Expression
import UiMarkup.Command.Themes
import UiMarkup.Console.Table
import UiMarkup.Widget.Schema

/-!
Running a command line, and the command that lists the built-in widgets.
-/

namespace UiMarkup.Command

def widgetRow (k : WidgetKind) : List String :=
  [k.tag, k.displayName, "v" ++ k.since.text, String.intercalate ", " k.schema.required]

def widgetTable : Console.Table where
  title := "Built-in widgets"
  columns := [⟨"Tag", .left⟩, ⟨"Name", .left⟩, ⟨"Since", .left⟩, ⟨"Required attributes", .left⟩]
  rows := WidgetKind.all.map widgetRow

def widgets : Printing Nat := do
  write widgetTable.printed
  return success

def versionText : String := "vellum, version 0.4.0"

def Request.run (files : Files) : Request → Printing Nat
  | .check options => Command.check files options
  | .inspect target custom => Command.inspect files (Path.ofText target) custom
  | .themes target => Command.themes files (Path.ofText target)
  | .widgets => Command.widgets
  | .expression source => Command.expression source
  | .version => do
    printPlain versionText
    return success

/-- How a command line ends: it asks for nothing that there is, or it prints, and ends with a
code or with a failure. -/
inductive Outcome
  | misused
  | finished (code : Nat) (text : String)
  | failed (failure : Failure) (text : String)

def run (files : Files) (texts : List String) : Outcome :=
  match (request? texts).filter (Request.isMet files) with
  | none => .misused
  | some request =>
    match (request.run files).run "" with
    | (.ok code, text) => .finished code text
    | (.error failure, text) => .failed failure text

end UiMarkup.Command
