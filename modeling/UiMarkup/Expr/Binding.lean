import UiMarkup.Expr.Parser
import UiMarkup.Source.Span
import UiMarkup.Text.Utf8

/-!
Expressions placed in a document.
-/

namespace UiMarkup

/-- An expression and the region of its text. -/
structure Binding where
  expr : Expr
  span : Span

instance : Inhabited Binding := ⟨⟨default, default⟩⟩

namespace Binding

def usesShared (b : Binding) : Bool := b.expr.usesShared

def usesModel (b : Binding) : Bool := b.expr.usesModel

/-- A fault of an expression in a document; the error is given the region from its place
to the end of the text. -/
inductive Fault
  | malformed (error : ExprError) (span : Span)
  | number (fault : Number.Fault)
  deriving DecidableEq, Repr

/-- The expression whose text begins at an offset and a position. -/
def parse (source : List Char) (start line column : Int) : Except Fault Binding :=
  let stop := start + Text.utf8Length source
  match ExprParser.parse source with
  | .ok expr => .ok ⟨expr, ⟨start, stop, line, column⟩⟩
  | .error (.number fault) => .error (.number fault)
  | .error (.malformed e) =>
    .error (.malformed e ⟨start + Text.utf8Length (source.take e.offset), stop,
      line, column + e.offset⟩)

end Binding
end UiMarkup
