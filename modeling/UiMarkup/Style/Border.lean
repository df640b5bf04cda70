import UiMarkup.Style.Color

/-!
Borders: a width, a color, four corner radii and a line style.
-/

namespace UiMarkup

inductive BorderStyle
  | solid | dashed | dotted
  deriving DecidableEq, Repr

namespace BorderStyle

def all : List BorderStyle := [.solid, .dashed, .dotted]

def name : BorderStyle → String
  | .solid => "solid"
  | .dashed => "dashed"
  | .dotted => "dotted"

end BorderStyle

/-- The radii of the corners, clockwise from the top left one. -/
structure Corners where
  topLeft : Float := 0.0
  topRight : Float := 0.0
  bottomRight : Float := 0.0
  bottomLeft : Float := 0.0

namespace Corners

def uniform (r : Float) : Corners := ⟨r, r, r, r⟩

def check (c : Corners) : Except ValueFault Unit :=
  if Value.firstLeast c.topLeft [c.topRight, c.bottomRight, c.bottomLeft] < 0 then
    .error .negativeRadius
  else .ok ()

end Corners

structure Border where
  width : Float := 0.0
  color : Color := .black
  radius : Corners := {}
  style : BorderStyle := .solid

namespace Border

def check (b : Border) : Except ValueFault Unit := do
  if b.width < 0 then throw (.negative .borderWidth b.width)
  b.color.check
  b.radius.check

open Text Value

def readWidth (text : List Char) : Except ValueFault Float := do
  let x ← number "border width" text
  if x < 0 then throw (.negative .borderWidth x)
  return x

/-- One radius for all corners, or one for each. -/
def readRadius (text : List Char) : Except ValueFault Corners := do
  let radius ← match words text with
    | [r] => do pure (.uniform (← number "border radius" r))
    | [a, b, c, d] => do
      pure ⟨← number "border radius" a, ← number "border radius" b, ← number "border radius" c,
        ← number "border radius" d⟩
    | _ => throw (.radiusFormat (String.ofList text))
  radius.check
  return radius

def readStyle : List Char → Except ValueFault BorderStyle :=
  keyword BorderStyle.all BorderStyle.name "border style" "solid, dashed, or dotted"

/-- A border from the parts that are given, if any is. -/
def ofParts (width : Option Float) (color : Option Color) (radius : Option Corners)
    (style : Option BorderStyle) : Except ValueFault (Option Border) :=
  if width.isNone && color.isNone && radius.isNone && style.isNone then .ok none
  else do
    let border : Border := ⟨width.getD 0.0, color.getD .black, radius.getD {}, style.getD .solid⟩
    border.check
    return some border

end Border
end UiMarkup
