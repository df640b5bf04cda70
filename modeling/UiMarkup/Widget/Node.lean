import UiMarkup.Layout.Constraints
import UiMarkup.OrderedMap
import UiMarkup.Style.Properties
import UiMarkup.Theme.State
import UiMarkup.Widget.AttributeName
import UiMarkup.Widget.Event
import UiMarkup.Widget.Kind

/-!
Widgets: what the elements of a document stand for.
-/

namespace UiMarkup

/-- Attributes by name, in the order in which they came in. -/
abbrev AttributeMap := OrderedMap String AttributeValue

/-- The values without expressions. -/
def AttributeMap.statics (m : AttributeMap) : OrderedMap String String :=
  m.filterMap fun (name, value) => value.static?.map (name, ·)

structure Widget where
  kind : Kind
  id : Option String := none
  attributes : AttributeMap := []
  events : List EventBinding := []
  classes : List String := []
  theme : Option AttributeValue := none
  breakpoints : OrderedMap Breakpoint AttributeMap := []
  states : OrderedMap WidgetState Style := []
  layout : Option Layout := none
  style : Option Style := none
  span : Span
  children : List Widget := []

namespace Widget

instance : Inhabited Widget := ⟨{ kind := .builtin .column, span := .origin }⟩

mutual

/-- The widget and all inside it, each before its children. -/
def walk : Widget → List Widget
  | ⟨kind, id, attributes, events, classes, theme, breakpoints, states, layout,
      style, span, children⟩ =>
    ⟨kind, id, attributes, events, classes, theme, breakpoints, states, layout,
      style, span, children⟩ ::
      walkAll children

def walkAll : List Widget → List Widget
  | [] => []
  | w :: ws => walk w ++ walkAll ws

end

/-- The text of an attribute without expressions. -/
def static? (w : Widget) (name : String) : Option String :=
  (w.attributes.get? name).bind AttributeValue.static?

/-- The first handler of an event. -/
def event? (w : Widget) (event : EventKind) : Option EventBinding :=
  w.events.find? fun e => e.event = event

end Widget
end UiMarkup
