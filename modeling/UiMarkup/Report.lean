import UiMarkup.Source.Span

/-!
Problems as people see them: a message with a place, a code and a suggestion.
-/

namespace UiMarkup

structure Report where
  message : String
  code : Option String := none
  span : Option Span := none
  path : Option String := none
  suggestion : Option String := none
  deriving DecidableEq, Repr

namespace Report

/-- Stands for a place where none is known. -/
def nowhere : String := "unknown location"

/-- The path, the position, or both. An empty path counts as none. -/
def location (r : Report) : String :=
  match r.span, r.path with
  | some s, some p => if p.isEmpty then s.position else p ++ ":" ++ s.position
  | some s, none => s.position
  | none, some p => if p.isEmpty then nowhere else p
  | none, none => nowhere

/-- What stands in parentheses behind the message. -/
def remarks (r : Report) : List String :=
  (if r.location = nowhere then [] else [r.location]) ++
    match r.code with
    | some c => if c.isEmpty then [] else [c]
    | none => []

/-- The message with its remarks, and the suggestion. -/
def text (r : Report) : String :=
  let first :=
    if r.remarks.isEmpty then r.message
    else r.message ++ " (" ++ String.intercalate "; " r.remarks ++ ")"
  let advice := match r.suggestion with
    | some s => if s.isEmpty then [] else ["Suggestion: " ++ s]
    | none => []
  String.intercalate " " ((first :: advice).filter (!·.isEmpty))

/-- The code, the place in words, and the message. -/
def headline (r : Report) : String :=
  let place := match r.span with
    | some s => " at line " ++ toString s.line ++ ", column " ++ toString s.column
    | none => ""
  r.code.getD "" ++ place ++ ": " ++ r.message

end Report
end UiMarkup
