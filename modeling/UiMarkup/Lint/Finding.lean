import UiMarkup.Document.Basic
import UiMarkup.Text.Split

/-!
Findings: what rules report about a document, with the place and the line where it is.
-/

namespace UiMarkup.Lint

inductive Severity
  | error | warning | info | hint
  deriving DecidableEq, Repr

def Severity.name : Severity → String
  | .error => "error"
  | .warning => "warning"
  | .info => "info"
  | .hint => "hint"

structure Finding where
  rule : String
  message : String
  severity : Severity := .error
  line : Option Int := none
  column : Option Int := none
  suggestion : Option String := none
  context : Option String := none
  deriving DecidableEq, Repr

namespace Finding

def isError (f : Finding) : Bool := f.severity == .error

def isWarning (f : Finding) : Bool := f.severity == .warning

/-- The order of findings: by line and column, those without a place first. -/
def notAfter (f g : Finding) : Bool :=
  let a := (f.line.getD 0, f.column.getD 0)
  let b := (g.line.getD 0, g.column.getD 0)
  a.1 < b.1 || (a.1 == b.1 && a.2 ≤ b.2)

end Finding

/-- What a check is asked to do: whether widgets that are too new are errors, whether documents must
have an XML declaration, and the handlers of the application, if they are known. -/
structure Settings where
  strict : Bool := false
  requireDeclaration : Bool := false
  handlers : Option (List String) := none
  deriving DecidableEq, Repr

/-- A document under check. -/
structure Context where
  text : List Char
  document : Document
  markup : Markup
  settings : Settings

/-- A line of a text, counted from one. -/
def lineAt? (text : List Char) (line : Int) : Option (List Char) :=
  if 1 ≤ line then (Text.lines text)[(line - 1).toNat]? else none

/-- A line as findings show it, without the blanks around it. -/
def shownLine? (text : List Char) (line : Int) : Option String :=
  (lineAt? text line).map fun l => String.ofList (Text.trim l)

namespace Context

/-- The line of a place, unless it is empty. -/
def lineOf? (c : Context) (span : Option Span) : Option String :=
  span.bind fun s =>
    match lineAt? c.text s.line with
    | some l => if l.isEmpty then none else some (String.ofList (Text.trim l))
    | none => none

/-- A finding of a rule at a place. -/
def finding (c : Context) (rule message : String) (span : Option Span) (suggestion : Option String)
    (severity : Severity) : Finding where
  rule := rule
  message := message
  severity := severity
  line := span.map Span.line
  column := span.map Span.column
  suggestion := suggestion
  context := c.lineOf? span

/-- An error found by a rule. -/
def error (c : Context) (rule message : String) (span : Option Span) (suggestion : Option String) :
    Finding :=
  c.finding rule message span suggestion .error

end Context

/-- A rule finds all it can; a rule that fails gives a reason. -/
structure Rule where
  id : String
  label : String
  description : String
  check : Context → Except String (List Finding)

/-- The close name that may have been meant, or else another suggestion. -/
def didYouMean (name : String) (names : List String) (otherwise : String) : String :=
  match Spelling.closest? name names with
  | some close => ParseProblem.didYouMean close
  | none => otherwise

def sorted (names : List String) : List String := names.mergeSort (· ≤ ·)

end UiMarkup.Lint
