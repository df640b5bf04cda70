import UiMarkup.Style.Color

/-!
Shadows, transforms and opacity.
-/

namespace UiMarkup

structure Shadow where
  x : Float
  y : Float
  blur : Float
  color : Color

inductive Transform
  | scale (factor : Float)
  | scaleXY (x y : Float)
  | rotate (degrees : Float)
  | translate (x y : Float)

open Text Value

/-- Two offsets, a blur radius and a color. -/
def Shadow.parse (text : List Char) : Except ValueFault Shadow :=
  match words text with
  | x :: y :: blur :: color :: more => do
    return ⟨← number "offset_x" x, ← number "offset_y" y, ← number "blur_radius" blur,
      ← Color.parse (joinWith [' '] (color :: more))⟩
  | _ => .error (.shadowFormat (String.ofList text))

/-- The transform of a function call, if there is one with that name and number of arguments. -/
def Transform.ofCall? (name : String) (args : List (List Char)) :
    Option (Except ValueFault Transform) :=
  match name, args with
  | "scale", [f] => some do return .scale (← number "scale value" f)
  | "scale", [x, y] => some do return .scaleXY (← number "scale x" x) (← number "scale y" y)
  | "rotate", [d] => some do
    return .rotate (← number "rotate value" ((dropSuffix? "deg".toList d).getD d))
  | "translate", [x, y] =>
    some do return .translate (← number "translate x" x) (← number "translate y" y)
  | _, _ => none

def Transform.parse (text : List Char) : Except ValueFault Transform :=
  match functionCall? (trim text) with
  | none => .error (.transformFormat (String.ofList text))
  | some (name, inner) =>
    (ofCall? (String.ofList name) (arguments inner)).getD
      (.error (.transformFormat (String.ofList text)))

def checkOpacity (x : Float) : Except ValueFault Unit :=
  if Color.inUnit x then .ok () else .error (.opacityRange x)

def readOpacity (text : List Char) : Except ValueFault Float := do
  let x ← number "opacity" text
  checkOpacity x
  return x

end UiMarkup
