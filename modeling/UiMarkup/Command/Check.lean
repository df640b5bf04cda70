import UiMarkup.Command.Printing
import UiMarkup.Data.JsonText
import UiMarkup.Lint.Check

/-!
The command that checks all documents of a workspace. Every document is read before
the first line is printed.
-/

namespace UiMarkup.Command

structure CheckOptions where
  target : String := Path.currentPart
  settings : Option Path := none
  overrides : Workspace.Overrides := {}
  asJson : Bool := false

/-! ### Results as lines -/

def severityWidth : Nat := 7

def severityText (s : Lint.Severity) : String :=
  s.name ++ String.ofList (List.replicate (severityWidth - s.name.length) ' ')

/-- The path, and the place in the file where there is one. -/
def place (path : String) (f : Lint.Finding) : String :=
  match f.line, f.column with
  | some line, some column => path ++ ":" ++ toString line ++ ":" ++ toString column
  | _, _ => path

/-- What stands before the remarks on a finding. -/
def indent : String := "        "

def printRemark (styled : String → String) : Option String → Printing Unit
  | none => pure ()
  | some text =>
    if text.isEmpty then pure () else printStyled (indent ++ styled (Console.literal text))

def printFinding (path : String) (f : Lint.Finding) : Printing Unit := do
  printPlain (severityText f.severity ++ " " ++ place path f ++ " [" ++ f.rule ++ "] " ++ f.message)
  printRemark (fun text => "[dim]" ++ text ++ "[/dim]") f.context
  printRemark (fun text => "[green]suggestion:[/green] " ++ text) f.suggestion

def printResult (r : Lint.Result) : Printing Unit := do
  r.findings.forM (printFinding r.path)
  r.failures.forM fun f =>
    printStyled ("[bold red]error[/bold red]   " ++ Console.literal r.path ++ ": " ++
      Console.literal f.message)

/-- The line after all results. A rule that failed counts as an error. -/
def summary (results : List Lint.Result) : String :=
  let errors := (results.map fun r => r.errorCount + r.failures.length).foldr (· + ·) 0
  let warnings := (results.map Lint.Result.warningCount).foldr (· + ·) 0
  "Checked " ++ toString results.length ++ " file(s): " ++ toString errors ++ " error(s), " ++
    toString warnings ++ " warning(s)"

/-! ### Results as data -/

def optional {α : Type} (f : α → Datum) : Option α → Datum
  | some a => f a
  | none => .null

def findingData (f : Lint.Finding) : Datum :=
  .table [("rule", .string f.rule), ("severity", .string f.severity.name),
    ("message", .string f.message), ("line", optional .integer f.line),
    ("column", optional .integer f.column), ("suggestion", optional .string f.suggestion)]

def resultData (r : Lint.Result) : Datum :=
  .table [("file", .string r.path), ("success", .bool r.isSuccess),
    ("findings", .list (r.findings.map findingData)),
    ("rule_failures", .list (r.failures.map fun f => .string f.message))]

/-! ### The command -/

def checkFile (files : Files) (w : Workspace) (path : Path) : Printing Lint.Result :=
  orFail .read
    (Lint.check Lint.defaultRules w.lint w.custom ((files.bytes? path).getD []) path.text).1

/-- The directory whose settings count for a path. -/
def rootOf (files : Files) (path : Path) : Path :=
  if files.isDirectory path then path else path.parent

def check (files : Files) (o : CheckOptions) : Printing Nat := do
  let path := Path.ofText o.target
  let w ← orFail .settings (Workspace.load files (rootOf files path) o.settings)
  let w := w.override o.overrides
  let documents ← orFail .pattern (w.discover files path)
  if documents.isEmpty then do
    printStyled ("[yellow]No documents found under " ++ Console.literal path.text ++ "[/yellow]")
    return success
  else do
    let results ← documents.mapM (checkFile files w)
    if o.asJson then write (Json.text (.list (results.map resultData)) ++ "\n")
    else do
      results.forM printResult
      printPlain (summary results)
    return if results.all Lint.Result.isSuccess then success else failureCode

end UiMarkup.Command
