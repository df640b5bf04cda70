import UiMarkup.Widget.Kind

/-!
The attributes and events that each kind of widget knows.
-/

namespace UiMarkup

/-- Attributes of the look that most widgets share. -/
def commonStyleAttributes : List String := [
  "background", "color", "border_color", "border_width", "border_radius", "border_style", "shadow",
  "opacity", "transform", "style", "text_color"]

/-- Attributes of the layout that most widgets share. -/
def commonLayoutAttributes : List String := [
  "width", "height", "min_width", "max_width", "min_height", "max_height", "padding", "spacing",
  "align_items", "justify_content", "align", "align_x", "align_y", "align_self", "direction",
  "position", "top", "right", "bottom", "left", "z_index", "class", "theme"]

def commonEvents : List String := [
  "on_click", "on_press", "on_release", "on_change", "on_input", "on_submit", "on_select",
  "on_toggle", "on_scroll"]

def pickerEvents : List String := ["on_submit", "on_cancel", "on_open", "on_close"]

/-- What a kind of widget knows. A permissive one knows every attribute. -/
structure WidgetSchema where
  required : List String := []
  optional : List String := []
  events : List String := commonEvents
  styleAttributes : List String := commonStyleAttributes
  layoutAttributes : List String := commonLayoutAttributes
  permissive : Bool := false
  deriving DecidableEq, Repr

namespace WidgetSchema

/-- Every name that is known, group by group. -/
def names (s : WidgetSchema) : List String :=
  "id" :: (s.required ++ s.optional ++ s.events ++ s.styleAttributes ++ s.layoutAttributes)

def accepts (s : WidgetSchema) (name : String) : Bool := s.permissive || s.names.contains name

/-- A widget of the application takes any attribute. -/
def custom : WidgetSchema where
  events := []
  styleAttributes := []
  layoutAttributes := []
  permissive := true

end WidgetSchema

def WidgetKind.schema : WidgetKind → WidgetSchema
  | .column => {}
  | .row => {}
  | .container => {}
  | .scrollable => { events := ["on_scroll"] }
  | .stack => {}
  | .text => { required := ["value"], optional := ["size", "weight", "font"] }
  | .image => { required := ["src"], optional := ["fit", "filter_method", "path"] }
  | .svg => { required := ["src"], optional := ["path"] }
  | .button =>
    { optional := ["label", "enabled"], events := ["on_click", "on_press", "on_release"] }
  | .textInput => {
      optional := ["placeholder", "value", "password", "secure", "icon", "size"]
      events := ["on_input", "on_submit", "on_change"] }
  | .checkbox => { optional := ["checked", "label", "icon", "size"], events := ["on_toggle"] }
  | .slider =>
    { optional := ["min", "max", "value", "step"], events := ["on_change", "on_release"] }
  | .pickList => { optional := ["placeholder", "selected", "options"], events := ["on_select"] }
  | .toggler =>
    { optional := ["toggled", "active", "is_toggled", "label"], events := ["on_toggle"] }
  | .space => { events := [] }
  | .rule => { optional := ["orientation", "thickness"], events := [] }
  | .radio => {
      required := ["label", "value"]
      optional := ["selected", "disabled", "size", "text_size"]
      events := ["on_select"] }
  | .combobox => {
      optional := ["placeholder", "value", "selected", "options"]
      events := ["on_input", "on_select"] }
  | .progressBar => { optional := ["value", "min", "max", "style"], events := [] }
  | .tooltip => {
      optional := ["message", "position", "delay", "gap"]
      layoutAttributes := ["class", "theme"] }
  | .grid => { optional := ["columns"] }
  | .canvas => { optional := ["program"], events := ["on_click", "on_press", "on_release"] }
  | .float => { optional := ["offset_x", "offset_y"] }
  | .datePicker => { optional := ["value", "show", "format"], events := pickerEvents }
  | .timePicker => {
      optional := ["value", "show", "format", "use_24h", "show_seconds"]
      events := pickerEvents }
  | .colorPicker => { optional := ["value", "show", "show_alpha"], events := pickerEvents }
  | .menu => { optional := ["label", "position"] }
  | .menuItem => { required := ["label"], optional := ["icon", "shortcut", "disabled"] }
  | .menuSeparator => { events := [] }
  | .contextMenu => { optional := ["menu"] }
  | .dataTable => { optional := ["data"], events := ["on_row_click", "on_select"] }
  | .dataColumn => { optional := ["header", "field", "width"], events := [] }
  | .treeView => {
      optional := ["nodes", "expanded", "selected", "indent_size", "node_height"]
      events := ["on_toggle", "on_select"] }
  | .treeNode => { optional := ["label", "icon", "expanded", "selected"] }
  | .loop => { required := ["each", "in"], optional := ["template"], events := [] }
  | .conditional => { required := ["condition"], events := [] }

def Kind.schema : Kind → WidgetSchema
  | .builtin k => k.schema
  | .custom _ => .custom

end UiMarkup
