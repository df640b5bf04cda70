import UiMarkup.Number.Decimal
import UiMarkup.Report

/-!
What can be wrong with the literal value of a layout or style attribute, and
the wording of each fault.
-/

namespace UiMarkup

inductive ColorFault
  | hexFormat
  | unrecognized
  | componentCount
  | componentRange
  | alphaRange
  | missingPercent
  deriving DecidableEq, Repr

inductive Channel
  | red | green | blue | alpha
  deriving DecidableEq, Repr

inductive Axis
  | width | height
  deriving DecidableEq, Repr

/-- Quantities that may not be negative, where a value says so on its own. -/
inductive Quantity
  | spacing | constraint | borderWidth
  deriving DecidableEq, Repr

inductive GradientKind
  | linear | radial
  deriving DecidableEq, Repr

/-- A fault of a value. The first group comes from reading a text, the second from checking values
against their ranges and each other. -/
inductive ValueFault
  | notNumber (what text : String)
  | notKeyword (what text expected : String)
  | color (text : String) (fault : ColorFault)
  | noPercentSign (text : String)
  | percentageRange (value : Float)
  | paddingFormat (text : String)
  | radiusFormat (text : String)
  | shadowFormat (text : String)
  | transformFormat (text : String)
  | gradientFormat (text : String)
  | gradientParts (kind : GradientKind)
  | emptyStop
  | negative (what : Quantity) (value : Float)
  | portionRange (value : Int)
  | channelRange (channel : Channel) (value : Float)
  | angleRange (value : Float)
  | tooFewStops
  | tooManyStops
  | stopRange (offset : Float)
  | stopOrder
  | negativeRadius
  | opacityRange (value : Float)
  | minAboveMax (axis : Axis) (least most : Float)
  | negativeSpacing (value : Float)
  | negativePadding
  | lengthPercentage (value : Float)
  | positionWithoutOffset
  | layout (fault : ValueFault)

def ColorFault.message : ColorFault → String
  | .hexFormat => "invalid hex format"
  | .unrecognized => "unrecognized color format"
  | .componentCount => "expected 3 or 4 components"
  | .componentRange => "component out of range"
  | .alphaRange => "alpha must be between 0 and 1"
  | .missingPercent => "saturation and lightness need '%'"

def Channel.label : Channel → String
  | .red => "Red"
  | .green => "Green"
  | .blue => "Blue"
  | .alpha => "Alpha"

def Axis.label : Axis → String
  | .width => "width"
  | .height => "height"

def Quantity.label : Quantity → String
  | .spacing => "Spacing"
  | .constraint => "Constraint"
  | .borderWidth => "Border width"

open Number (briefText plainText)

def ValueFault.message : ValueFault → String
  | .notNumber what text => "Invalid " ++ what ++ ": " ++ text
  | .notKeyword what text expected =>
    "Invalid " ++ what ++ ": '" ++ text ++ "'. Expected " ++ expected
  | .color text fault => "Invalid color '" ++ text ++ "': " ++ fault.message
  | .noPercentSign text => "Percentage must end with '%', got " ++ text
  | .percentageRange x => "Percentage must be 0.0-100.0, got " ++ briefText x
  | .paddingFormat text => "Invalid padding format: '" ++ text ++ "'. Expected 1, 2, or 4 values"
  | .radiusFormat text => "Invalid border radius format: '" ++ text ++ "'. Expected 1 or 4 values"
  | .shadowFormat text =>
    "Invalid shadow format: '" ++ text ++ "'. Expected: offset_x offset_y blur color"
  | .transformFormat text =>
    "Invalid transform format: '" ++ text ++ "'. Expected scale(n), rotate(n), or translate(x, y)"
  | .gradientFormat text =>
    "Invalid gradient format: '" ++ text ++
      "'. Expected linear-gradient(...) or radial-gradient(...)"
  | .gradientParts .linear => "Gradient requires a angle and color stops"
  | .gradientParts .radial => "Gradient requires a shape and color stops"
  | .emptyStop => "Empty color stop"
  | .negative what x => what.label ++ " must be non-negative, got " ++ briefText x
  | .portionRange n => "fill_portion must be 1-255, got " ++ toString n
  | .channelRange channel x => channel.label ++ " component out of range: " ++ plainText x
  | .angleRange x => "Gradient angle must be 0.0-360.0, got " ++ briefText x
  | .tooFewStops => "Gradient must have at least 2 color stops"
  | .tooManyStops => "Gradient cannot have more than 8 color stops"
  | .stopRange x => "Color stop offset must be 0.0-1.0, got " ++ briefText x
  | .stopOrder => "Color stop offsets must be in ascending order"
  | .negativeRadius => "Border radius values must be non-negative"
  | .opacityRange x => "Opacity must be 0.0-1.0, got " ++ briefText x
  | .minAboveMax axis least most =>
    "min_" ++ axis.label ++ " (" ++ briefText least ++ ") > max_" ++ axis.label ++
      " (" ++ briefText most ++ ")"
  | .negativeSpacing x => "spacing must be non-negative, got " ++ briefText x
  | .negativePadding => "padding values must be non-negative"
  | .lengthPercentage x => "percentage must be 0.0-100.0, got " ++ briefText x
  | .positionWithoutOffset => "position requires at least one offset (top, right, bottom, or left)"
  | .layout fault => "Layout validation failed: " ++ fault.message

/-- The code that all bad values share. -/
def ValueFault.code : String := "INVALID_STYLE_VALUE"

/-- The report of a bad value. A value by itself has no place. -/
def ValueFault.report (f : ValueFault) : Report :=
  { message := f.message, code := some ValueFault.code }

end UiMarkup
