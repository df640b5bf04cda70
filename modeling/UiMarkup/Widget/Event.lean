import UiMarkup.Widget.Value

/-!
Event handlers of widgets: the name of a handler, perhaps with a parameter behind a colon.
-/

namespace UiMarkup

inductive EventKind
  | click | press | release | change | input | submit | select | toggle | scroll | cancel | opened
  | closed
  deriving DecidableEq, Repr

namespace EventKind

def all : List EventKind :=
  [.click, .press, .release, .change, .input, .submit, .select, .toggle, .scroll,
    .cancel, .opened, .closed]

def name : EventKind → String
  | .click => "click"
  | .press => "press"
  | .release => "release"
  | .change => "change"
  | .input => "input"
  | .submit => "submit"
  | .select => "select"
  | .toggle => "toggle"
  | .scroll => "scroll"
  | .cancel => "cancel"
  | .opened => "open"
  | .closed => "close"

/-- What the attributes of events begin with. -/
def attributeMark : String := "on_"

def attributeName (k : EventKind) : String := attributeMark ++ k.name

/-- The kind of event that an attribute handles. -/
def ofAttribute? (attributeName : String) : Option EventKind :=
  all.find? fun k => k.attributeName = attributeName

end EventKind

structure EventBinding where
  event : EventKind
  handler : String
  param : Option Binding := none
  span : Span

namespace EventBinding

open Text

/-- The text between single quotes, if it is all of a parameter. -/
def quotedText? (param : List Char) : Option (List Char) :=
  match param with
  | '\'' :: rest => dropSuffix? ['\''] rest
  | _ => none

/-- A parameter that is a text. -/
def literalParam (place : ValuePlace) (before param text : List Char) : Binding :=
  let (offset, line, column) := place.after before
  ⟨.ofString (String.ofList text), ⟨offset, offset + utf8Length param, line, column⟩⟩

/-- The expression of a parameter without the braces around it. -/
def withoutBraces (param : List Char) : List Char :=
  trimBy (· == '\x7d') (trimBy (· == '\x7b') param)

/-- The handler of an event attribute. A parameter that is no expression makes the whole value the
name of the handler. Other attributes have none. -/
def parse (name value : String) (place : ValuePlace) : Except Number.Fault (Option EventBinding) :=
  match EventKind.ofAttribute? name with
  | none => .ok none
  | some event =>
    match cut? ':' value.toList with
    | none => .ok (some ⟨event, value, none, place.span⟩)
    | some (handler, param) =>
      let before := handler ++ [':']
      match quotedText? param with
      | some text =>
        .ok (some ⟨event, String.ofList handler, some (literalParam place before param text),
          place.span⟩)
      | none =>
        match place.bind (before ++ param.takeWhile (· == '\x7b')) (withoutBraces param) with
        | .ok b => .ok (some ⟨event, String.ofList handler, some b, place.span⟩)
        | .error (.malformed _ _) => .ok (some ⟨event, value, none, place.span⟩)
        | .error (.number fault) => .error fault

end EventBinding
end UiMarkup
