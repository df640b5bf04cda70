import UiMarkup.Command.Printing
import UiMarkup.Console.Tree
import UiMarkup.Document.Basic

/-!
The command that shows the widgets of a document as a tree, with the names of its
themes and style classes.
-/

namespace UiMarkup.Command

/-- The document of a file, with the widgets that its workspace and the caller bring along. An error
of the document is printed. -/
def loadDocument (files : Files) (path : Path) (custom : List String) :
    Printing (Option Document) := do
  let w ← orFail .settings (Workspace.load files path.parent none)
  match (Document.read (w.custom ++ custom) ((files.bytes? path).getD [])).1 with
  | .ok document => return some document
  | .error (.parse e) => do
    printError e.report path
    return none
  | .error fault => throw (.read fault)

/-- What stands for an expression in a text. -/
def partText : ValuePart → String
  | .text text => text
  | .binding _ => "\x7b…\x7d"

def valueText : AttributeValue → String
  | .static text => Datum.quotedText text
  | .binding _ => "\x7bbinding\x7d"
  | .interpolated parts => Datum.quotedText (String.join (parts.map partText))

def idText (w : Widget) : String :=
  match w.id with
  | some id => if id.isEmpty then "" else " #" ++ id
  | none => ""

/-- The tag, the id, the attributes in the order of their names, and the handlers. -/
def widgetLabel (w : Widget) : String :=
  let attributes := w.attributes.mergeSort fun p q => p.1 ≤ q.1
  w.kind.tag ++ idText w ++
    String.join (attributes.map fun (name, value) => " " ++ name ++ "=" ++ valueText value) ++
    String.join (w.events.map fun e => " " ++ e.event.attributeName ++ "→" ++ e.handler)

mutual

def widgetTree : Widget → Console.Tree
  | ⟨kind, id, attributes, events, classes, theme, breakpoints, states, layout,
      style, span, children⟩ =>
    .node
      (widgetLabel ⟨kind, id, attributes, events, classes, theme, breakpoints, states, layout,
        style, span, children⟩)
      (widgetTrees children)

def widgetTrees : List Widget → List Console.Tree
  | [] => []
  | w :: ws => widgetTree w :: widgetTrees ws

end

/-- A name and what it extends, where names may have tags. -/
def nameTree (name : String) (parents : List String) : Printing Console.Tree := do
  let ending := if parents.isEmpty then "" else " extends " ++ String.intercalate " " parents
  return .node (← unstyled (name ++ ending)) []

/-- A heading over names, unless there are none. -/
def namesTree (heading : String) (names : List (String × List String)) :
    Printing (List Console.Tree) := do
  if names.isEmpty then return []
  let trees ← names.mapM fun (name, parents) => nameTree name parents
  return [.node heading trees]

def themeNames (d : Document) : List (String × List String) :=
  d.themes.sortedNames.map fun n => (n, ((d.themes.get? n).map Theme.parents).getD [])

def classNames (d : Document) : List (String × List String) :=
  d.classes.sortedNames.map fun n => (n, ((d.classes.get? n).map StyleClass.parents).getD [])

def documentTree (path : Path) (d : Document) : Printing Console.Tree := do
  let label ← unstyled
      ("[bold]" ++ Console.literal path.name ++ "[/bold] (schema v" ++ d.version.text ++ ")")
  let themes ← namesTree "themes" (themeNames d)
  let classes ← namesTree "style classes" (classNames d)
  return .node label (widgetTree d.root :: (themes ++ classes))

def inspect (files : Files) (path : Path) (custom : List String) : Printing Nat := do
  match ← loadDocument files path custom with
  | none => return failureCode
  | some d => do
    write (← documentTree path d).printed
    return success

end UiMarkup.Command
