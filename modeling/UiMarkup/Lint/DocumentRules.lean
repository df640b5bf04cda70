import UiMarkup.Lint.Finding

/-!
Rules about whole documents: their version and their XML declaration.
-/

namespace UiMarkup.Lint

namespace SchemaVersionRule

def id : String := "schema-version"

def severity (s : Settings) : Severity := if s.strict then .error else .warning

def rule : Rule where
  id := id
  label := "SchemaVersionRule"
  description := "Detect widgets that require a newer schema version"
  check := fun c => .ok (c.document.versionGaps.map fun (gap, span) =>
    c.finding id gap.message (some span) (some gap.suggestion) (severity c.settings))

end SchemaVersionRule

namespace XmlDeclarationRule

def id : String := "xml-declaration"

/-- The finding stands at the very beginning, without the line. -/
def missing : Finding where
  rule := id
  message := "Missing XML declaration"
  line := some 1
  column := some 1
  suggestion := some "Start the file with <?xml version=\"1.0\" encoding=\"UTF-8\"?>"

def rule : Rule where
  id := id
  label := "XmlDeclarationRule"
  description := "Require an XML declaration at the start of each document"
  check := fun c =>
      .ok (if c.settings.requireDeclaration && !c.markup.hasDeclaration then [missing] else [])

end XmlDeclarationRule
end UiMarkup.Lint
