import UiMarkup.Expr.Binding
import UiMarkup.ParseError
import UiMarkup.Source.Map
import UiMarkup.Text.Split

/-!
Values of attributes: plain text, one expression in braces, or text with expressions in it.
-/

namespace UiMarkup

/-- Where a value stands. With the source at hand, the lines and columns inside the value are those
of the source, which may have line breaks where the value has blanks. -/
structure ValuePlace where
  span : Span
  source : Option SourceMap := none

inductive ValuePart
  | text (text : String)
  | binding (binding : Binding)

inductive AttributeValue
  | static (text : String)
  | binding (binding : Binding)
  | interpolated (parts : List ValuePart)

instance : Inhabited AttributeValue := ⟨.static ""⟩

open Text

/-- A piece of a raw value: literal text, or the inside of a pair of braces. -/
inductive Segment
  | literal (text : List Char)
  | group (inner : List Char)
  deriving DecidableEq, Repr

namespace Segment

/-- The characters that a segment takes. -/
def source : Segment → List Char
  | .literal text => text
  | .group inner => '\x7b' :: inner ++ ['\x7d']

/-- A literal, unless it is empty. -/
def literalIf (text : List Char) : List Segment := if text.isEmpty then [] else [.literal text]

/-- The segments of a value. A brace that is not closed is literal, with all after it. -/
def split (value : List Char) : List Segment :=
  match _h : cut? '\x7b' value with
  | none => literalIf value
  | some (before, after) =>
    match _h' : cut? '\x7d' after with
    | none => literalIf value
    | some (inner, rest) => literalIf before ++ .group inner :: split rest
  termination_by value.length
  decreasing_by
    have h₁ := (eq_append_of_cut? _h).1
    have h₂ := (eq_append_of_cut? _h').1
    subst h₂
    subst h₁
    simp only [List.length_append, List.length_cons]
    omega

end Segment

namespace ValuePlace

/-- The number of characters after the last line feed, and the line feed. -/
def columnAfterBreak (before : List Char) : Nat := (before.reverse.takeWhile (· != '\n')).length + 1

/-- Byte offset, line and column of the place in a value that some characters come before. -/
def after (p : ValuePlace) (before : List Char) : Int × Int × Int :=
  let offset := p.span.start + utf8Length before
  match p.source with
  | some source => (offset, source.lineColumn offset)
  | none =>
    let breaks := before.count '\n'
    if breaks = 0 then (offset, p.span.line, p.span.column + before.length)
    else (offset, p.span.line + breaks, columnAfterBreak before)

/-- The expression that stands behind some characters of a value. -/
def bind (p : ValuePlace) (before text : List Char) : Except Binding.Fault Binding :=
  let (offset, line, column) := p.after before
  Binding.parse text offset line column

end ValuePlace

namespace AttributeValue

/-- The fault that a bad expression is for a document. -/
def faultOf : Binding.Fault → ReadFault
  | .malformed e span => .parse ⟨.expression e.problem, span⟩
  | .number fault => .number fault

/-- The parts that segments stand for, after some characters of the value. -/
def partsOf (p : ValuePlace) : List Char → List Segment → Except ReadFault (List ValuePart)
  | _, [] => .ok []
  | before, .literal text :: more => do
    let parts ← partsOf p (before ++ text) more
    return .text (String.ofList text) :: parts
  | before, .group inner :: more => do
    let b ← (p.bind (before ++ ['\x7b']) inner).mapError faultOf
    let parts ← partsOf p (before ++ (Segment.group inner).source) more
    return .binding b :: parts

/-- The value that parts make up. A single expression or a single text stands for itself. -/
def ofParts : List ValuePart → AttributeValue
  | [] => .static ""
  | [.text text] => .static text
  | [.binding b] => .binding b
  | parts => .interpolated parts

/-- The value of an attribute that stands at some place. -/
def classify (p : ValuePlace) (value : String) : Except ReadFault AttributeValue := do
  let parts ← partsOf p [] (Segment.split value.toList)
  return ofParts parts

/-- The text of a value without expressions. -/
def static? : AttributeValue → Option String
  | .static text => some text
  | _ => none

def isBinding : AttributeValue → Bool
  | .binding _ => true
  | _ => false

end AttributeValue

namespace ValuePart

def binding? : ValuePart → Option Binding
  | .binding b => some b
  | .text _ => none

/-- The text of a part, where an empty pair of braces stands for an expression. -/
def skeleton : ValuePart → String
  | .text t => t
  | .binding _ => "\x7b\x7d"

end ValuePart

/-- All expressions of a value. -/
def AttributeValue.bindings : AttributeValue → List Binding
  | .static _ => []
  | .binding b => [b]
  | .interpolated parts => parts.filterMap ValuePart.binding?

end UiMarkup
