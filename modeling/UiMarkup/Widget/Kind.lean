/-!
Versions of the document schema, and kinds of widgets: the built-in ones, and those that an
application brings along.
-/

namespace UiMarkup

/-- A version, ordered by its major number and then by its minor one. -/
structure Version where
  major : Nat
  minor : Nat
  deriving DecidableEq, Repr

namespace Version

def first : Version := ⟨1, 0⟩

def second : Version := ⟨1, 1⟩

/-- The newest version that documents may declare. -/
def newest : Version := second

def notAfter (v w : Version) : Bool :=
  v.major < w.major || (v.major == w.major && v.minor ≤ w.minor)

/-- The first version is the newer one. -/
def newerThan (v w : Version) : Bool := !v.notAfter w

def text (v : Version) : String := toString v.major ++ "." ++ toString v.minor

end Version

inductive WidgetKind
  | column | row | container | scrollable | stack | text | image | svg | button | textInput
  | checkbox | slider | pickList | toggler | space | rule | radio | combobox | progressBar
  | tooltip | grid | canvas | float | datePicker | timePicker | colorPicker | menu | menuItem
  | menuSeparator | contextMenu | dataTable | dataColumn | treeView | treeNode | loop | conditional
  deriving DecidableEq, Repr

namespace WidgetKind

/-- All kinds, in the order of the documentation. -/
def all : List WidgetKind := [
  .column, .row, .container, .scrollable, .stack, .text, .image, .svg, .button, .textInput,
  .checkbox, .slider, .pickList, .toggler, .space, .rule, .radio, .combobox, .progressBar, .tooltip,
  .grid, .canvas, .float, .datePicker, .timePicker, .colorPicker, .menu, .menuItem, .menuSeparator,
  .contextMenu, .dataTable, .dataColumn, .treeView, .treeNode, .loop, .conditional]

/-- The name of the element. -/
def tag : WidgetKind → String
  | .column => "column"
  | .row => "row"
  | .container => "container"
  | .scrollable => "scrollable"
  | .stack => "stack"
  | .text => "text"
  | .image => "image"
  | .svg => "svg"
  | .button => "button"
  | .textInput => "text_input"
  | .checkbox => "checkbox"
  | .slider => "slider"
  | .pickList => "pick_list"
  | .toggler => "toggler"
  | .space => "space"
  | .rule => "rule"
  | .radio => "radio"
  | .combobox => "combobox"
  | .progressBar => "progress_bar"
  | .tooltip => "tooltip"
  | .grid => "grid"
  | .canvas => "canvas"
  | .float => "float"
  | .datePicker => "date_picker"
  | .timePicker => "time_picker"
  | .colorPicker => "color_picker"
  | .menu => "menu"
  | .menuItem => "menu_item"
  | .menuSeparator => "menu_separator"
  | .contextMenu => "context_menu"
  | .dataTable => "data_table"
  | .dataColumn => "data_column"
  | .treeView => "tree_view"
  | .treeNode => "tree_node"
  | .loop => "for"
  | .conditional => "if"

/-- The name in messages. -/
def displayName : WidgetKind → String
  | .column => "Column"
  | .row => "Row"
  | .container => "Container"
  | .scrollable => "Scrollable"
  | .stack => "Stack"
  | .text => "Text"
  | .image => "Image"
  | .svg => "Svg"
  | .button => "Button"
  | .textInput => "TextInput"
  | .checkbox => "Checkbox"
  | .slider => "Slider"
  | .pickList => "PickList"
  | .toggler => "Toggler"
  | .space => "Space"
  | .rule => "Rule"
  | .radio => "Radio"
  | .combobox => "ComboBox"
  | .progressBar => "ProgressBar"
  | .tooltip => "Tooltip"
  | .grid => "Grid"
  | .canvas => "Canvas"
  | .float => "Float"
  | .datePicker => "DatePicker"
  | .timePicker => "TimePicker"
  | .colorPicker => "ColorPicker"
  | .menu => "Menu"
  | .menuItem => "MenuItem"
  | .menuSeparator => "MenuSeparator"
  | .contextMenu => "ContextMenu"
  | .dataTable => "DataTable"
  | .dataColumn => "DataColumn"
  | .treeView => "TreeView"
  | .treeNode => "TreeNode"
  | .loop => "For"
  | .conditional => "If"

/-- The kinds that came with version 1.1. -/
def laterKinds : List WidgetKind := [
  .canvas, .datePicker, .timePicker, .colorPicker, .menu, .menuItem, .menuSeparator, .contextMenu,
  .dataTable, .dataColumn, .treeView, .treeNode]

/-- The least schema version that has the kind. -/
def since (k : WidgetKind) : Version := if k ∈ laterKinds then .second else .first

def ofTag? (tag : String) : Option WidgetKind := all.find? fun k => k.tag = tag

end WidgetKind

/-- A built-in kind, or the tag of a widget of the application. -/
inductive Kind
  | builtin (kind : WidgetKind)
  | custom (tag : String)
  deriving DecidableEq, Repr

namespace Kind

def tag : Kind → String
  | .builtin k => k.tag
  | .custom t => t

def displayName : Kind → String
  | .builtin k => k.displayName
  | .custom t => t

def isCustom : Kind → Bool
  | .builtin _ => false
  | .custom _ => true

def since : Kind → Version
  | .builtin k => k.since
  | .custom _ => .first

end Kind
end UiMarkup
