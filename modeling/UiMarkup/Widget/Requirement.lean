import UiMarkup.Widget.Node

/-!
What each kind of widget asks of its attributes and children.
-/

namespace UiMarkup

/-- An attribute that is asked for, and an example of it. -/
structure Asked where
  name : String
  example? : String

/-- The least and the largest value of an attribute. -/
structure Range where
  name : String
  least : Int
  most : Int

/-- Attributes that must be there, must hold text, must lie in a range if they are numbers, or must
be one expression; and the exact number of children, if it is fixed. -/
structure Requirements where
  required : List Asked := []
  nonEmpty : List Asked := []
  ranges : List Range := []
  bindings : List Asked := []
  children : Option Nat := none

namespace Requirements

def optionsExample : String := "Add a comma-separated list: options=\"Option1,Option2\""

def ofKind : WidgetKind → Requirements
  | .combobox => { nonEmpty := [⟨"options", optionsExample⟩] }
  | .pickList => { nonEmpty := [⟨"options", optionsExample⟩] }
  | .canvas => {
      required := [
        ⟨"width", "Add width attribute: width=\"400\""⟩,
        ⟨"height", "Add height attribute: height=\"300\""⟩,
        ⟨"program", "Add program attribute: program=\"\x7bchart\x7d\""⟩]
      ranges := [⟨"width", 50, 4000⟩, ⟨"height", 50, 4000⟩]
      bindings := [⟨"program", "Bind the program to your model: program=\"\x7bchart\x7d\""⟩]
      children := some 0 }
  | .grid => {
      required := [⟨"columns", "Add columns attribute: columns=\"5\""⟩]
      ranges := [⟨"columns", 1, 20⟩] }
  | .tooltip => {
      required := [⟨"message", "Add message attribute: message=\"Help text\""⟩]
      children := some 1 }
  | .loop => {
      required := [
        ⟨"each", "Add each attribute: each=\"item\""⟩,
        ⟨"in", "Add in attribute: in=\"\x7bitems\x7d\""⟩] }
  | _ => {}

/-- A number of children other than the fixed one. -/
def childrenProblem? (r : Requirements) (kind : WidgetKind) (count : Nat) : Option ParseProblem :=
  match r.children with
  | some expected => if count = expected then none else some (.childCount kind expected count)
  | none => none

def emptyProblem? (kind : WidgetKind) (attributes : AttributeMap) (a : Asked) :
    Option ParseProblem :=
  match attributes.get? a.name with
  | some (.static text) =>
    if (Text.trim text.toList).isEmpty then some (.emptyAttribute kind a.name a.example?) else none
  | _ => some (.emptyAttribute kind a.name a.example?)

def missingProblem? (kind : WidgetKind) (attributes : AttributeMap) (a : Asked) :
    Option ParseProblem :=
  if attributes.has a.name then none else some (.missingAttribute kind a.name a.example?)

/-- The number lies in the range. -/
def Range.holds (r : Range) (x : Float) : Bool := Float.ofInt r.least ≤ x && x ≤ Float.ofInt r.most

def rangeProblem? (kind : WidgetKind) (attributes : AttributeMap) (r : Range) :
    Option ParseProblem :=
  match attributes.get? r.name with
  | some (.static text) =>
    match Number.readFloat? (Text.trim text.toList) with
    | some x => if Range.holds r x then none else some (.outOfRange kind r.name r.least r.most x)
    | none => none
  | _ => none

def bindingProblem? (kind : WidgetKind) (attributes : AttributeMap) (a : Asked) :
    Option ParseProblem :=
  match attributes.get? a.name with
  | some value => if value.isBinding then none else some (.notBinding kind a.name a.example?)
  | none => none

/-- The first problem with the attributes of a widget. -/
def attributeProblem? (r : Requirements) (kind : WidgetKind) (attributes : AttributeMap) :
    Option ParseProblem :=
  (r.nonEmpty.findSome? (emptyProblem? kind attributes)).or <|
  (r.required.findSome? (missingProblem? kind attributes)).or <|
  (r.ranges.findSome? (rangeProblem? kind attributes)).or <|
  r.bindings.findSome? (bindingProblem? kind attributes)

end Requirements
end UiMarkup
