import UiMarkup.Report
import UiMarkup.Theme.Palette
import UiMarkup.Theme.State
import UiMarkup.Theme.Typography
import UiMarkup.Value.Fault

/-!
Errors of themes and of style classes.
-/

namespace UiMarkup

/-- Names in a row, or a word where there is nothing to show. -/
def listOr (nothing : String) (names : List String) : String :=
  let text := String.intercalate ", " names
  if text.isEmpty then nothing else text

/-- What is wrong with the themes of a document. Where other names can be
offered, they come along. -/
inductive ThemeProblem
  | noThemes
  | unknownDefault (name : String) (available : List String)
  | missingColors (theme : String) (missing : List PaletteColor)
  | missingAfterInheritance (theme : String) (missing : List PaletteColor)
  | typography (theme : String) (problems : List TypographyProblem) (isRoot : Bool)
  | spacing (theme : String) (unit : Float)
  | baseStyle (theme tag : String) (fault : ValueFault)
  | color (theme : String) (role : PaletteColor) (fault : ValueFault) (whileReading : Bool)
  | duplicate (theme : String)
  | unknown (theme : String) (available : List String)
  | parentNotFound (parent child : String) (available : List String)
  | circular (chain : List String)
  | tooDeep (theme : String)

/-- No chain of inheritance has more entities. -/
def maxInheritanceDepth : Nat := 5

/-- What stands between the names of a chain. -/
def chainSeparator : String := " → "

namespace ThemeProblem

def code : ThemeProblem → String
  | .noThemes => "THEME_001"
  | .unknownDefault .. => "THEME_002"
  | .missingColors .. | .missingAfterInheritance .. | .typography .. | .spacing ..
  | .baseStyle .. => "THEME_003"
  | .color .. => "THEME_004"
  | .duplicate .. => "THEME_005"
  | .unknown .. | .parentNotFound .. => "THEME_006"
  | .circular .. => "THEME_007"
  | .tooDeep .. => "THEME_008"

def typographyExample : String :=
  "\nExample typography configuration:\n  <typography\n      font_family=\"Inter, sans-serif\"" ++
  "\n      font_size_base=\"16\"\n      font_size_small=\"12\"\n      font_size_large=\"20\"" ++
  "\n      font_weight=\"normal\"\n      line_height=\"1.5\" />"

def spacingExample : String :=
  "Valid spacing examples:\n  - <spacing unit=\"4\" />   (4px base)\n" ++
  "  - <spacing unit=\"8\" />   (8px base, recommended)\n  - <spacing unit=\"16\" />  (16px base)\n"

def inheritanceTip : String :=
  "\n\nTip: If you want to inherit colors from another theme, " ++
  "add 'extends=\"parent_theme\"' attribute to this theme.\n" ++
  "Example: <theme name=\"dark\" extends=\"base\">"

def typographyTip : String :=
  "\nTip: Missing typography values will inherit from parent theme if 'extends' is used."

def roleNames (roles : List PaletteColor) : String :=
  toString roles.length ++ " required color(s)"

def description : ThemeProblem → String
  | .noThemes => "At least one theme must be defined"
  | .unknownDefault name available =>
    "Default theme '" ++ name ++ "' not found. Available: " ++ String.intercalate ", " available
  | .missingColors theme missing =>
    "Invalid theme '" ++ theme ++ "': Theme '" ++ theme ++ "' is missing " ++ roleNames missing ++
      ": " ++ String.intercalate ", " (missing.map PaletteColor.name) ++ inheritanceTip
  | .missingAfterInheritance theme missing =>
    "Theme '" ++ theme ++ "' is missing " ++ roleNames missing ++ " after inheritance: " ++
      String.intercalate ", " (missing.map PaletteColor.name)
  | .typography theme problems isRoot =>
    "Invalid theme '" ++ theme ++ "': Typography validation failed for theme '" ++ theme ++
      "':\n" ++ String.join (problems.map fun p => "  - " ++ p.message ++ "\n") ++
      (if isRoot then typographyTip else "") ++ typographyExample
  | .spacing theme unit =>
    "Invalid theme '" ++ theme ++ "': spacing unit must be positive, got " ++
      Number.briefText unit ++ "\n" ++ spacingExample
  | .baseStyle theme tag fault =>
    "Invalid theme '" ++ theme ++ "': Invalid base style for '" ++ tag ++ "': " ++ fault.message
  | .color theme role fault _ =>
    "Theme '" ++ theme ++ "' has invalid color value for " ++ role.name ++ ": " ++ fault.message
  | .duplicate theme => "Duplicate theme name '" ++ theme ++ "'"
  | .unknown theme _ => "Theme '" ++ theme ++ "' not found"
  | .parentNotFound parent child _ =>
    "Parent theme '" ++ parent ++ "' not found for theme '" ++ child ++ "'"
  | .circular chain =>
    "Circular theme inheritance detected: " ++ String.intercalate chainSeparator chain
  | .tooDeep theme =>
    "Theme inheritance depth exceeds " ++ toString maxInheritanceDepth ++
      " levels for '" ++ theme ++ "'"

def suggestion : ThemeProblem → Option String
  | .color _ role _ true => some ("Use a hex or named color, e.g. " ++ role.name ++ "=\"#3498db\"")
  | .missingAfterInheritance .. => some "Define the colors on this theme or one of its ancestors"
  | .duplicate _ => some "Give each <theme> a unique name"
  | .unknown _ available => some ("Available themes: " ++ listOr "none" available)
  | .parentNotFound _ _ available => some ("Available themes: " ++ listOr "none" available)
  | .circular _ => some "Remove one of the 'extends' attributes to break the cycle"
  | .tooDeep _ =>
    some ("Flatten the chain to at most " ++ toString maxInheritanceDepth ++ " themes")
  | _ => none

/-- The description with its code in front. -/
def message (p : ThemeProblem) : String := p.code ++ ": " ++ p.description

end ThemeProblem

structure ThemeError where
  problem : ThemeProblem
  span : Option Span := none

def ThemeError.report (e : ThemeError) : Report :=
  { message := e.problem.message, code := some e.problem.code, span := e.span
    suggestion := e.problem.suggestion }

/-- What is wrong with the inheritance of style classes. -/
inductive ClassProblem
  | unknown (name : String)
  | parentNotFound (parent child : String)
  | circular (chain : List String)
  | tooDeep (name : String)
  deriving DecidableEq, Repr

namespace ClassProblem

def code : ClassProblem → String
  | .unknown _ | .parentNotFound .. => "STYLE_CLASS_NOT_FOUND"
  | .circular _ => "STYLE_CLASS_CIRCULAR"
  | .tooDeep _ => "STYLE_CLASS_DEPTH"

def message : ClassProblem → String
  | .unknown name => "Style class '" ++ name ++ "' not found"
  | .parentNotFound parent _ => "Parent class '" ++ parent ++ "' not found"
  | .circular chain =>
    "Circular style class dependency detected: " ++ String.intercalate chainSeparator chain
  | .tooDeep name =>
    "Style class inheritance depth exceeds " ++ toString maxInheritanceDepth ++
      " levels (class: " ++ name ++ ")"

def suggestion : ClassProblem → Option String
  | .parentNotFound parent child =>
    some ("Define <class name=\"" ++ parent ++ "\"> or remove it from '" ++ child ++ "' extends")
  | .circular _ => some "Remove one of the 'extends' references to break the cycle"
  | _ => none

end ClassProblem

structure ClassError where
  problem : ClassProblem
  span : Option Span := none
  deriving DecidableEq

def ClassError.report (e : ClassError) : Report :=
  { message := e.problem.message, code := some e.problem.code, span := e.span
    suggestion := e.problem.suggestion }

/-- Which part of a style class has a bad value. -/
inductive ClassPart
  | style
  | layout
  | state (state : WidgetState)
  | selector (selector : StateSelector)
  deriving DecidableEq

/-- A bad value in a style class, and the place of the class. -/
structure ClassFault where
  part : ClassPart
  fault : ValueFault
  span : Span

def ClassPart.label : ClassPart → String
  | .style => "Invalid style"
  | .layout => "Invalid layout"
  | .state s => "Invalid style for state " ++ s.name
  | .selector s => "Invalid style for state selector " ++ s.text

def ClassFault.message (f : ClassFault) : String := f.part.label ++ ": " ++ f.fault.message

/-- A bad value in a style class stands at the place of the class. -/
def ClassFault.report (f : ClassFault) : Report :=
  { f.fault.report with message := f.message, span := some f.span }

end UiMarkup
