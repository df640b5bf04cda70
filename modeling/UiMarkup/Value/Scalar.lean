import UiMarkup.Number.Literal
import UiMarkup.OrderedMap
import UiMarkup.Value.Fault

/-!
The building blocks of attribute values: finite numbers, keywords, function
calls and lists of arguments.
-/

namespace UiMarkup.Value

open Text

/-- The least of some numbers, the first one winning unless a later one is smaller. -/
def firstLeast (first : Float) (others : List Float) : Float :=
  others.foldl (fun least x => if x < least then x else least) first

/-- A finite number; `what` names it in the fault. -/
def number (what : String) (text : List Char) : Except ValueFault Float :=
  match Number.readFloat? (trim text) with
  | some x => if x.isFinite then .ok x else .error (.notNumber what (String.ofList (trim text)))
  | none => .error (.notNumber what (String.ofList (trim text)))

/-- A text without the blanks around it, in lower case: how keywords are compared. -/
def keywordForm (text : String) : String := String.ofList (lower (trim text.toList))

/-- One of the values of a type, by its name. -/
def keyword {α : Type} (all : List α) (name : α → String) (what expected : String)
    (text : List Char) : Except ValueFault α :=
  let wanted := keywordForm (String.ofList text)
  match all.find? fun a => name a = wanted with
  | some a => .ok a
  | none => .error (.notKeyword what (String.ofList text) expected)

/-- A whole number; `what` names it in the fault. -/
def wholeNumber (what : String) (text : List Char) : Except ValueFault Int :=
  match Number.readWhole (trim text) with
  | .ok n => .ok n
  | .error _ => .error (.notNumber what (String.ofList (trim text)))

/-- The depth of nesting after a character. -/
def depthAfter (depth : Int) (c : Char) : Int :=
  if c = '(' then depth + 1 else if c = ')' then depth - 1 else depth

/-- The pieces between commas at depth zero, from a given depth on. -/
def argumentPieces : Int → List Char → List (List Char)
  | _, [] => [[]]
  | depth, c :: cs =>
    if c = ',' ∧ depth = 0 then [] :: argumentPieces depth cs
    else consFirst c (argumentPieces (depthAfter depth c) cs)

/-- The arguments between commas that are not inside parentheses, without the blanks around them. -/
def arguments (text : List Char) : List (List Char) := (argumentPieces 0 text).map trim

def isFunctionChar (c : Char) : Bool := ('a' ≤ c && c ≤ 'z') || c == '-'

/-- The name and the inner text of `name(…)`, where the name is of small letters and hyphens. -/
def functionCall? (text : List Char) : Option (List Char × List Char) := do
  let (name, rest) ← cut? '(' text
  let inner ← dropSuffix? [')'] rest
  if !name.isEmpty && name.all isFunctionChar then some (name, inner) else none

/-- The items of a list with commas, without the empty ones. -/
def items (text : List Char) : List (List Char) := ((pieces ',' text).map trim).filter (!·.isEmpty)

/-- Whether something is switched on; a text that does not say so counts as a default. -/
def switch (default : Bool) (text : String) : Bool :=
  let word := keywordForm text
  if word = "true" then true else if word = "false" then false else default

/-- The value of an attribute, if the attribute is given. -/
def given {α : Type} (values : OrderedMap String String) (name : String)
    (read : List Char → Except ValueFault α) : Except ValueFault (Option α) :=
  match values.get? name with
  | none => .ok none
  | some text => (read text.toList).map some

end UiMarkup.Value
