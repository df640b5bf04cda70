import UiMarkup.Markup.Element
import UiMarkup.Widget.AttributeName
import UiMarkup.Widget.Requirement

/-!
Widgets from elements. Each element becomes one widget; the first thing that is wrong with it or
inside it is the error. Widgets nest to any depth.
-/

namespace UiMarkup

/-- An old name of an attribute was met, for which there is a new one. -/
structure Notice where
  kind : Kind
  oldName : String
  newName : String
  deriving DecidableEq, Repr

def Notice.message (n : Notice) : String :=
  "Attribute '" ++ n.oldName ++ "' is deprecated for " ++ n.kind.displayName ++ " widgets, use '" ++
    n.newName ++ "' instead"

/-- Where an attribute of a widget goes. -/
inductive Route
  | id (value : String)
  | event (event : EventBinding)
  | breakpoint (breakpoint : Breakpoint) (name : String) (value : AttributeValue)
  | state (state : WidgetState) (name : String) (value : AttributeValue)
  | plain (name : String) (value : AttributeValue)

namespace Route

/-- A name with one state in front, and no other. -/
def singleState? (name : String) : Option (WidgetState × String) :=
  match AttributeName.splitState? name with
  | some (s, base) => if base.toList.contains ':' then none else some (s, base)
  | none => none

/-- The route of an attribute in a document. -/
def ofAttribute (source : SourceMap) (a : Attribute) : Except ReadFault Route :=
  let place : ValuePlace := ⟨a.span, some source⟩
  if a.name = "id" then .ok (.id a.value)
  else do
    match ← (EventBinding.parse a.name a.value place).mapError .number with
    | some e => return .event e
    | none =>
      match AttributeName.splitBreakpoint? a.name with
      | some (b, base) => return .breakpoint b base (← AttributeValue.classify place a.value)
      | none =>
        match singleState? a.name with
        | some (s, base) => return .state s base (← AttributeValue.classify place a.value)
        | none => return .plain a.name (← AttributeValue.classify place a.value)

end Route

/-- The attributes of a widget, sorted by where they go. -/
structure Routed where
  id : Option String := none
  events : List EventBinding := []
  breakpoints : OrderedMap Breakpoint AttributeMap := []
  states : OrderedMap WidgetState AttributeMap := []
  attributes : AttributeMap := []

namespace Routed

def add (r : Routed) : Route → Routed
  | .id value => { r with id := some value }
  | .event e => { r with events := r.events ++ [e] }
  | .breakpoint b name value =>
    { r with breakpoints := r.breakpoints.adjust b [] (OrderedMap.put · name value) }
  | .state s name value => { r with states := r.states.adjust s [] (OrderedMap.put · name value) }
  | .plain name value => { r with attributes := r.attributes.put name value }

def ofAttributes (source : SourceMap) (attributes : List Attribute) : Except ReadFault Routed := do
  let routes ← attributes.mapM (Route.ofAttribute source)
  return routes.foldl add {}

end Routed

/-- An old name, its new name, and the kinds of widgets that had it. -/
structure Renaming where
  oldName : String
  newName : String
  kinds : List WidgetKind

def renamings : List Renaming := [
  ⟨"path", "src", [.image, .svg]⟩,
  ⟨"active", "toggled", [.toggler]⟩,
  ⟨"is_toggled", "toggled", [.toggler]⟩,
  ⟨"secure", "password", [.textInput]⟩]

namespace Renaming

/-- The renaming changes an attribute of a widget. -/
def concerns (r : Renaming) (kind : WidgetKind) (attributes : AttributeMap) : Bool :=
  r.kinds.contains kind && attributes.has r.oldName

def apply (attributes : AttributeMap) (r : Renaming) : AttributeMap :=
  match attributes.get? r.oldName with
  | some value => (attributes.erase r.oldName).put r.newName value
  | none => attributes

/-- Attributes under their new names, and notices of the old ones. -/
def applyAll (kind : Kind) (attributes : AttributeMap) : List Renaming → AttributeMap × List Notice
  | [] => (attributes, [])
  | r :: more =>
    match kind with
    | .custom _ => (attributes, [])
    | .builtin k =>
      if r.concerns k attributes then
        let (attributes, notices) := applyAll (.builtin k) (apply attributes r) more
        (attributes, ⟨.builtin k, r.oldName, r.newName⟩ :: notices)
      else applyAll (.builtin k) attributes more

end Renaming

namespace Widget

/-- Reading widgets, with the notices met so far. -/
abbrev Build := ExceptT ReadFault (StateM (List Notice))

def refuse {α : Type} (problem : ParseProblem) (span : Span) : Except ReadFault α :=
  .error (.parse ⟨problem, span⟩)

def refuseIf (problem : Option ParseProblem) (span : Span) : Except ReadFault Unit :=
  match problem with
  | some p => refuse p span
  | none => .ok ()

/-- The kind of an element; the custom widgets are those of the application. -/
def kindOf (custom : List String) (tag : String) (span : Span) : Except ReadFault Kind :=
  match WidgetKind.ofTag? tag with
  | some k => .ok (.builtin k)
  | none => if custom.contains tag then .ok (.custom tag) else refuse (.unknownWidget tag) span

/-- The names of the classes of a widget, where no expression is among them. -/
def classNames (attributes : AttributeMap) : List String :=
  match attributes.get? "class" with
  | some (.static text) => (Text.words text.toList).map String.ofList
  | _ => []

def checkChildren (kind : Kind) (count : Nat) (span : Span) : Except ReadFault Unit :=
  match kind with
  | .builtin k => refuseIf ((Requirements.ofKind k).childrenProblem? k count) span
  | .custom _ => .ok ()

def checkAttributes (kind : Kind) (attributes : AttributeMap) (span : Span) :
    Except ReadFault Unit :=
  match kind with
  | .builtin k => refuseIf ((Requirements.ofKind k).attributeProblem? k attributes) span
  | .custom _ => .ok ()

/-- The layout and the style that the attributes make up. The position of a tooltip is
not that of a layout. -/
def readLook (kind : Kind) (attributes : AttributeMap) (span : Span) :
    Except ReadFault (Option Layout × Option Style) :=
  let values := attributes.statics
  let look : Except ValueFault (Option Layout × Option Style) := do
    let layout ← Layout.ofAttributes values (kind = .builtin .tooltip)
    let style ← Style.ofAttributes values
    return (layout, style)
  look.mapError fun fault => .parse ⟨.value fault, span⟩

/-- The styles of the states that have one. -/
def readStates (span : Span) : List (WidgetState × AttributeMap) →
    Except ReadFault (OrderedMap WidgetState Style)
  | [] => .ok []
  | (state, attributes) :: more => do
    let style ← (Style.ofAttributes attributes.statics).mapError fun fault =>
      ReadFault.parse ⟨.stateValue state.name fault, span⟩
    let styles ← readStates span more
    return match style with
      | some s => (state, s) :: styles
      | none => styles

/-- The widget of an element whose attributes are sorted and whose children are read. -/
def assemble (kind : Kind) (routed : Routed) (children : List Widget) (span : Span) :
    Build Widget := do
  checkChildren kind children.length span
  let (layout, style) ← readLook kind routed.attributes span
  let states ← readStates span routed.states
  let (attributes, notices) := Renaming.applyAll kind routed.attributes renamings
  modify (· ++ notices)
  checkAttributes kind attributes span
  return {
    kind, attributes, layout, style, states, span, children
    id := routed.id
    events := routed.events
    breakpoints := routed.breakpoints
    classes := classNames routed.attributes
    theme := routed.attributes.get? "theme" }

mutual

/-- The widget of an element. -/
def build (custom : List String) (source : SourceMap) : Element → Build Widget
  | ⟨tag, attributes, children, span⟩ => do
    let kind ← kindOf custom tag span
    let routed ← Routed.ofAttributes source attributes
    let children ← buildAll custom source children
    assemble kind routed children span

def buildAll (custom : List String) (source : SourceMap) : List Element → Build (List Widget)
  | [] => pure []
  | e :: es => do
    let w ← build custom source e
    let ws ← buildAll custom source es
    return w :: ws

end

end Widget
end UiMarkup
