import UiMarkup.Lint.Finding
import UiMarkup.Widget.Schema

/-!
Rules about widgets: their attributes, events and handlers, and attributes
for breakpoints and states.
-/

namespace UiMarkup.Lint

/-! ### Attributes and events -/

namespace WidgetAttributeRule

def id : String := "widget-attribute"

/-- An attribute that the kind of widget does not know; attributes for states
are not looked at here. -/
def unknownFinding? (c : Context) (w : Widget) (name : String) : Option Finding :=
  let schema := w.kind.schema
  if name.toList.contains ':' || schema.accepts name then none
  else some (c.error id ("Unknown attribute '" ++ name ++ "' for " ++ w.kind.displayName)
    (some w.span)
    (some (didYouMean name schema.names
      (ParseProblem.validNames "attributes" (sorted schema.names.eraseDups)))))

def missingFinding? (c : Context) (w : Widget) (name : String) : Option Finding :=
  if w.attributes.has name then none
  else some (c.error id ("Missing required attribute '" ++ name ++ "' for " ++ w.kind.displayName)
    (some w.span) (some ("Add " ++ name ++ "=\"...\" to <" ++ w.kind.tag ++ ">")))

def eventFinding? (c : Context) (w : Widget) (e : EventBinding) : Option Finding :=
  let events := w.kind.schema.events
  if events.contains e.event.attributeName then none
  else some (c.finding id
    ("Event '" ++ e.event.attributeName ++ "' is not supported by " ++ w.kind.displayName)
    (some e.span) (some ("Supported events: " ++ listOr "none" events)) .warning)

def widgetFindings (c : Context) (w : Widget) : List Finding :=
  if w.kind.schema.permissive then []
  else
    (sorted w.attributes.keys).filterMap (unknownFinding? c w) ++
      w.kind.schema.required.filterMap (missingFinding? c w) ++
        w.events.filterMap (eventFinding? c w)

def rule : Rule where
  id := id
  label := "WidgetAttributeRule"
  description := "Detect unknown attributes, missing required attributes and unsupported events"
  check := fun c => .ok (c.document.walk.flatMap (widgetFindings c))

end WidgetAttributeRule

/-! ### Handlers -/

namespace HandlerRule

def id : String := "event-handler"

def eventFinding? (c : Context) (w : Widget) (e : EventBinding) : Option Finding :=
  let handler := String.ofList (Text.trim e.handler.toList)
  let name := e.event.attributeName
  if handler.isEmpty then
    some (c.error id ("Empty handler for " ++ name ++ " on " ++ w.kind.displayName) (some e.span)
      (some ("Name a handler: " ++ name ++ "=\"handle_" ++ e.event.name ++ "\"")))
  else
    match c.settings.handlers with
    | none => none
    | some known =>
      if known.contains handler then none
      else some (c.error id ("Unknown handler '" ++ handler ++ "'") (some e.span)
        (some (didYouMean handler known "Register the handler in [check] handlers")))

def rule : Rule where
  id := id
  label := "HandlerRule"
  description := "Detect empty and unregistered event handlers"
  check := fun c => .ok (c.document.walk.flatMap fun w => w.events.filterMap (eventFinding? c w))

end HandlerRule

/-! ### Attributes for breakpoints and states -/

namespace ResponsiveAttributeRule

def id : String := "responsive-attribute"

def knownNames : List String := Layout.attributeNames ++ Style.attributeNames

/-- What is wrong with the value of an attribute of a layout or a style, taken alone. -/
def valueProblem? (name text : String) : Option ValueFault :=
  if Layout.attributeNames.contains name then
    match Layout.ofAttributes [(name, text)] false with
    | .ok _ => none
    | .error fault => some fault
  else
    match Style.ofAttributes [(name, text)] with
    | .ok _ => none
    | .error fault => some fault

def breakpointFinding? (c : Context) (w : Widget) (b : Breakpoint) (p : String × AttributeValue) :
    Option Finding :=
  let full := b.name ++ "-" ++ p.1
  if !knownNames.contains p.1 then
    some (c.error id ("Unknown attribute '" ++ p.1 ++ "' in breakpoint attribute '" ++ full ++ "'")
      (some w.span)
      (some (didYouMean p.1 knownNames "Breakpoints apply to layout and style attributes")))
  else
    match p.2.static? with
    | none => none
    | some text =>
      (valueProblem? p.1 text).map fun fault =>
        c.error id ("Invalid value for '" ++ full ++ "': " ++ fault.message) (some w.span) none

def widgetFindings (c : Context) (w : Widget) : List Finding :=
  w.breakpoints.flatMap fun (b, attributes) =>
    (attributes.mergeSort fun p q => p.1 ≤ q.1).filterMap (breakpointFinding? c w b)

/-- What stands before the last colon of a name. -/
def statesText (name : String) : String := ((AttributeName.splitLast? name).map Prod.fst).getD ""

def classTags : List String := ["class", "style"]

/-- An attribute with states in front, outside style classes: one state and an
attribute of a style. -/
def stateFinding? (c : Context) (e : Element) (name : String) : Option Finding :=
  if classTags.contains e.tag then none
  else
    match AttributeName.splitSelector? name with
    | none =>
      some (c.error id
        ("Invalid state prefix '" ++ statesText name ++ "' in attribute '" ++ name ++ "'")
        (some e.span) (some ("Valid states are: " ++ ParseProblem.stateNames)))
    | some (selector, base) =>
      if !selector.isSingle then
        some (c.finding id
          ("Combined state selector '" ++ selector.text ++ "' is only supported in style classes")
          (some e.span)
          (some "Move the combined state styles into a <class> and reference it with class=\"...\"")
            .warning)
      else if !Style.attributeNames.contains base then
        some (c.error id
          ("Attribute '" ++ base ++ "' cannot be used in " ++ selector.text ++ " state")
          (some e.span)
          (some (didYouMean base Style.attributeNames
            ("State variants accept: " ++ String.intercalate ", " (sorted Style.attributeNames)))))
      else none

def elementFindings (c : Context) (e : Element) : List Finding :=
  e.attributes.filterMap fun a =>
    if a.name.toList.contains ':' then stateFinding? c e a.name else none

def rule : Rule where
  id := id
  label := "ResponsiveAttributeRule"
  description := "Validate breakpoint and state prefixed attributes"
  check := fun c => .ok
    (c.document.walk.flatMap (widgetFindings c) ++ c.markup.root.walk.flatMap (elementFindings c))

end ResponsiveAttributeRule
end UiMarkup.Lint
