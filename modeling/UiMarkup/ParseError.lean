import UiMarkup.Expr.Error
import UiMarkup.Layout.Constraints
import UiMarkup.Report
import UiMarkup.Spelling
import UiMarkup.Style.Properties
import UiMarkup.Theme.Error
import UiMarkup.Widget.Kind
import UiMarkup.Xml.Fault

/-!
What can be wrong with a document. Reading a document stops at the first error.
-/

namespace UiMarkup

inductive ParseErrorKind
  | xmlSyntax | unknownWidget | missingAttribute | invalidValue | invalidExpression
  | unsupportedVersion
  deriving DecidableEq, Repr

namespace ParseErrorKind

def all : List ParseErrorKind :=
  [.xmlSyntax, .unknownWidget, .missingAttribute, .invalidValue, .invalidExpression,
    .unsupportedVersion]

def name : ParseErrorKind → String
  | .xmlSyntax => "XML_SYNTAX"
  | .unknownWidget => "UNKNOWN_WIDGET"
  | .missingAttribute => "MISSING_ATTRIBUTE"
  | .invalidValue => "INVALID_VALUE"
  | .invalidExpression => "INVALID_EXPRESSION"
  | .unsupportedVersion => "UNSUPPORTED_VERSION"

end ParseErrorKind

/-- The element that holds the sections of a document. -/
def documentTag : String := "vellum"

/-- A widget that a document of an older version must not hold. -/
structure VersionGap where
  kind : Kind
  declared : Version
  deriving DecidableEq, Repr

namespace VersionGap

def message (g : VersionGap) : String :=
  "Widget '" ++ g.kind.tag ++ "' requires schema v" ++ g.kind.since.text ++
    " but document declares v" ++ g.declared.text

def suggestion (g : VersionGap) : String :=
  "Update to <" ++ documentTag ++ " version=\"" ++ g.kind.since.text ++ "\"> or remove this widget"

end VersionGap

/-- Elements that take but a few attributes. -/
inductive AttributeOwner
  | palette | typography | styleClass
  deriving DecidableEq, Repr

namespace AttributeOwner

def label : AttributeOwner → String
  | .palette => "palette"
  | .typography => "typography"
  | .styleClass => "style class"

def typographyNumbers : List String :=
  ["font_size_base", "font_size_small", "font_size_large", "line_height"]

def styleClassNames : List String :=
  (["name", "extends"] ++ Layout.attributeNames ++ Style.attributeNames).mergeSort (· ≤ ·)

/-- The attributes that the element takes. -/
def names : AttributeOwner → List String
  | .palette => PaletteColor.all.map PaletteColor.name
  | .typography => ["font_family", "font_weight"] ++ typographyNumbers
  | .styleClass => styleClassNames

end AttributeOwner

/-- What is wrong. Where an attribute is asked for, an example comes along. -/
inductive ParseProblem
  | xml (fault : Xml.Fault)
  | expression (problem : ExprProblem)
  | unknownWidget (tag : String)
  | childCount (kind : WidgetKind) (expected found : Nat)
  | value (fault : ValueFault)
  | stateValue (state : String) (fault : ValueFault)
  | emptyAttribute (kind : WidgetKind) (name advice : String)
  | missingAttribute (kind : WidgetKind) (name advice : String)
  | outOfRange (kind : WidgetKind) (name : String) (least most : Int) (found : Float)
  | notBinding (kind : WidgetKind) (name advice : String)
  | emptyVersion
  | versionFormat (text : String)
  | unsupportedVersion (version : Version)
  | widgetTooNew (gap : VersionGap)
  | severalRoots
  | noRoot
  | theme (problem : ThemeProblem)
  | unknownAttribute (owner : AttributeOwner) (name : String)
  | fontWeight (text : String)
  | typographyNumber (name text : String)
  | spacingUnit (text : String)
  | unknownBaseWidget (tag : String)
  | baseStyle (tag : String) (fault : ValueFault)
  | themeChild (tag theme : String)
  | unnamedClass
  | statePrefix (text : String)
  | classChild (tag name : String)
  | classValue (name : String) (fault : ValueFault)
  | documentSection (tag : String)

namespace ParseProblem

def kind : ParseProblem → ParseErrorKind
  | .xml _ | .severalRoots | .noRoot => .xmlSyntax
  | .expression _ => .invalidExpression
  | .unknownWidget _ | .unknownBaseWidget _ => .unknownWidget
  | .emptyAttribute .. | .missingAttribute .. => .missingAttribute
  | .unsupportedVersion _ | .widgetTooNew _ => .unsupportedVersion
  | _ => .invalidValue

def childCountMessage (kind : WidgetKind) (expected found : Nat) : String :=
  if kind = .tooltip then "Tooltip widget must have exactly one child, found " ++ toString found
  else if expected = 0 then kind.displayName ++ " widget cannot have children, found " ++
    toString found
  else kind.displayName ++ " widget must have exactly " ++ toString expected ++
    " children, found " ++ toString found

def message : ParseProblem → String
  | .xml fault => "XML parse error: " ++ fault.message
  | .expression problem => "Invalid expression: " ++ problem.message
  | .unknownWidget tag => "Unknown widget: " ++ tag
  | .childCount kind expected found => childCountMessage kind expected found
  | .value fault => fault.message
  | .stateValue state fault => "Invalid style in " ++ state ++ " state: " ++ fault.message
  | .emptyAttribute kind name _ =>
    kind.displayName ++ " widget requires '" ++ name ++ "' attribute to be non-empty"
  | .missingAttribute kind name _ =>
    kind.displayName ++ " widget requires '" ++ name ++ "' attribute"
  | .outOfRange kind name least most found =>
    name ++ " for " ++ kind.displayName ++ " " ++ name ++ " must be between " ++ toString least ++
      " and " ++ toString most ++ ", found " ++ Number.briefText found
  | .notBinding kind name _ =>
    kind.displayName ++ " widget '" ++ name ++ "' attribute must be a binding expression"
  | .emptyVersion => "Version attribute cannot be empty"
  | .versionFormat text =>
    "Invalid version format '" ++ text ++ "'. Expected 'major.minor' (e.g., '1.0')"
  | .unsupportedVersion version =>
    "Schema version " ++ version.text ++ " is not supported. Maximum supported version: " ++
      Version.newest.text
  | .widgetTooNew gap => gap.message
  | .severalRoots => "Multiple root widgets found in <" ++ documentTag ++ ">"
  | .noRoot => "No root widget found in <" ++ documentTag ++ ">"
  | .theme problem => problem.message
  | .unknownAttribute owner name => "Unknown " ++ owner.label ++ " attribute '" ++ name ++ "'"
  | .fontWeight text => "Invalid font_weight '" ++ text ++ "'"
  | .typographyNumber name text => "Invalid typography value for " ++ name ++ ": '" ++ text ++ "'"
  | .spacingUnit text => "Invalid spacing unit: '" ++ text ++ "'"
  | .unknownBaseWidget tag => "Unknown widget in base_styles: " ++ tag
  | .baseStyle tag fault => "Invalid base style for '" ++ tag ++ "': " ++ fault.message
  | .themeChild tag owner => "Unknown element <" ++ tag ++ "> in theme '" ++ owner ++ "'"
  | .unnamedClass => "Style class must have a name"
  | .statePrefix text => "Invalid state prefix: " ++ text
  | .classChild tag name => "Unknown element <" ++ tag ++ "> in style class '" ++ name ++ "'"
  | .classValue name fault => "Invalid style class '" ++ name ++ "': " ++ fault.message
  | .documentSection tag => "Unexpected element <" ++ tag ++ "> in theme document"

def widgetTags : List String := WidgetKind.all.map WidgetKind.tag

/-- All names that might have been meant. -/
def validNames (what : String) (names : List String) : String :=
  "Valid " ++ what ++ " are: " ++ String.intercalate ", " names

def didYouMean (name : String) : String := "Did you mean '" ++ name ++ "'?"

/-- The closest name, or else all of them. -/
def offer (what name : String) (names : List String) : String :=
  match Spelling.closest? name names with
  | some close => didYouMean close
  | none => validNames what names

def stateNames : String := String.intercalate ", " (WidgetState.all.map WidgetState.name)

def versionExample : String := "Use format: version=\"1.0\""

def suggestion : ParseProblem → Option String
  | .expression _ => some "Check the expression syntax inside \x7b \x7d"
  | .unknownWidget tag =>
    let all := validNames "widgets" widgetTags
    match Spelling.closest? tag widgetTags with
    | some close => some (didYouMean close ++ " " ++ all)
    | none => some all
  | .childCount kind expected _ =>
    if kind = .tooltip then some "Wrap a single widget in <tooltip></tooltip>"
    else if expected = 0 then some ("Remove child elements from <" ++ kind.tag ++ ">")
    else none
  | .emptyAttribute _ _ advice => some advice
  | .missingAttribute _ _ advice => some advice
  | .outOfRange _ name least most _ =>
    some ("Use " ++ name ++ " value between " ++ toString least ++ " and " ++ toString most)
  | .notBinding _ _ advice => some advice
  | .emptyVersion => some versionExample
  | .versionFormat _ => some versionExample
  | .unsupportedVersion version =>
    some ("Upgrade " ++ documentTag ++ " to support v" ++ version.text ++ ", or use version=\"" ++
      Version.newest.text ++ "\"")
  | .widgetTooNew gap => some gap.suggestion
  | .severalRoots => some "Only one root widget is allowed"
  | .noRoot => some ("Add a widget like <column> or <row> inside <" ++ documentTag ++ ">")
  | .theme problem => problem.suggestion
  | .unknownAttribute owner name => some (offer "attributes" name owner.names)
  | .fontWeight _ =>
    some ("Use one of: " ++ String.intercalate ", " (FontWeight.all.map FontWeight.name))
  | .typographyNumber name _ => some ("Use a number, e.g. " ++ name ++ "=\"16\"")
  | .spacingUnit _ => some "Use a number, e.g. <spacing unit=\"8\" />"
  | .unknownBaseWidget tag => some (offer "widgets" tag widgetTags)
  | .themeChild _ _ => some "Themes contain <palette>, <typography>, <spacing> and <base_styles>"
  | .unnamedClass => some "Add a name: <class name=\"primary_button\">"
  | .statePrefix _ => some ("Valid states are: " ++ stateNames)
  | .classChild _ _ =>
    some ("Use a state element such as <hover>; valid states are: " ++ stateNames)
  | .documentSection _ =>
    some "Theme documents contain <themes>, <default_theme> and <follow_system>"
  | _ => none

end ParseProblem

/-- A problem at its place. -/
structure ParseError where
  problem : ParseProblem
  span : Span

namespace ParseError

def report (e : ParseError) : Report :=
  { message := e.problem.message, code := some e.problem.kind.name, span := some e.span
    suggestion := e.problem.suggestion }

end ParseError

/-- Why a document cannot be read. Faults of numbers and encodings are not counted as errors of the
document and have no place. -/
inductive ReadFault
  | parse (error : ParseError)
  | theme (error : ThemeError)
  | number (fault : Number.Fault)
  | unknownEncoding (fault : Xml.CodecFault)

def ReadFault.message : ReadFault → String
  | .parse e => e.report.message
  | .theme e => e.report.message
  | .number f => f.message
  | .unknownEncoding f => f.message

end UiMarkup
