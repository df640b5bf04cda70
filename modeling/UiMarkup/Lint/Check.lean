import UiMarkup.Lint.DocumentRules
import UiMarkup.Lint.ThemeRules
import UiMarkup.Lint.WidgetRules

/-!
The check of a document: all findings of all rules, or the one error that keeps the
document from being read.
-/

namespace UiMarkup.Lint

/-- All rules, in the order in which they run. -/
def defaultRules : List Rule := [
  ThemeRule.rule, StyleClassRule.rule, ReferenceRule.rule, WidgetAttributeRule.rule,
  HandlerRule.rule, ResponsiveAttributeRule.rule, SchemaVersionRule.rule, XmlDeclarationRule.rule]

/-- A rule that failed, and its reason. -/
structure RuleFailure where
  rule : String
  reason : String
  deriving DecidableEq, Repr

def RuleFailure.message (f : RuleFailure) : String :=
  "Rule " ++ f.rule ++ " encountered an error: " ++ f.reason

structure Result where
  path : String
  findings : List Finding
  errors : List String := []
  failures : List RuleFailure := []

namespace Result

def errorCount (r : Result) : Nat := r.findings.countP Finding.isError

def warningCount (r : Result) : Nat := r.findings.countP Finding.isWarning

/-- The document could be read, no rule failed, and no finding is an error. -/
def isSuccess (r : Result) : Bool := r.errors.isEmpty && r.failures.isEmpty && r.errorCount == 0

end Result

/-- The findings of the rules in their order, and the failures. -/
def runRules (c : Context) : List Rule → List Finding × List RuleFailure
  | [] => ([], [])
  | r :: more =>
    let (findings, failures) := runRules c more
    match r.check c with
    | .ok found => (found ++ findings, failures)
    | .error reason => (findings, ⟨r.id, reason⟩ :: failures)

/-- The path of documents that have none. -/
def untitled : String := "untitled.vellum"

/-- The name of the findings that come from reading the document. -/
def parseRule : String := "parse"

/-- The result for a document with an error. -/
def unreadable (text : List Char) (path : String) (e : ParseError) : Result where
  path := path
  findings := [{
    rule := parseRule
    message := e.report.message
    line := some e.span.line
    column := some e.span.column
    suggestion := e.report.suggestion
    context := shownLine? text e.span.line }]
  errors := ["Parse error: " ++ { e.report with path := some path }.text]

/-- The result for a document that can be read. -/
def examine (c : Context) (path : String) (rules : List Rule) : Result :=
  let (findings, failures) := runRules c rules
  { path, findings := findings.mergeSort Finding.notAfter, failures }

/-- Checks a document. Faults that are no errors of the document itself are passed on. The notices
are those of the reading. -/
def check (rules : List Rule) (settings : Settings) (custom : List String) (bytes : List UInt8)
    (path : String) : Except ReadFault Result × List Notice :=
  let text := Text.decodeUtf8 bytes
  match Markup.read bytes with
  | .error (.xml fault span) => (.ok (unreadable text path ⟨.xml fault, span⟩), [])
  | .error (.unknownEncoding fault) => (.error (.unknownEncoding fault), [])
  | .ok markup =>
    match (Document.ofMarkup custom markup).run [] with
    | (.error (.parse e), notices) => (.ok (unreadable text path e), notices)
    | (.error fault, notices) => (.error fault, notices)
    | (.ok document, notices) =>
      (.ok (examine ⟨text, document, markup, settings⟩ path rules), notices)

end UiMarkup.Lint
