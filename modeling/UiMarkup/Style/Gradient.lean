import UiMarkup.Style.Color

/-!
Gradients: an angle or a shape, and from two to eight color stops in ascending order.
-/

namespace UiMarkup

structure ColorStop where
  color : Color
  offset : Float

inductive RadialShape
  | circle | ellipse
  deriving DecidableEq, Repr

namespace RadialShape

def all : List RadialShape := [.circle, .ellipse]

def name : RadialShape → String
  | .circle => "circle"
  | .ellipse => "ellipse"

end RadialShape

inductive Gradient
  | linear (angle : Float) (stops : List ColorStop)
  | radial (shape : RadialShape) (stops : List ColorStop)

namespace Gradient

def stops : Gradient → List ColorStop
  | .linear _ stops => stops
  | .radial _ stops => stops

def minStops : Nat := 2

def maxStops : Nat := 8

def fullTurn : Float := 360.0

/-- Every stop lies between zero and one and after the one before it, and its color is in range. -/
def checkStops : Float → List ColorStop → Except ValueFault Unit
  | _, [] => .ok ()
  | last, s :: more => do
    if !Color.inUnit s.offset then throw (.stopRange s.offset)
    if s.offset ≤ last then throw .stopOrder
    s.color.check
    checkStops s.offset more

def check (g : Gradient) : Except ValueFault Unit := do
  match g with
  | .linear angle _ => if !(0.0 ≤ angle && angle ≤ fullTurn) then throw (.angleRange angle)
  | .radial _ _ => pure ()
  if g.stops.length < minStops then throw .tooFewStops
  if maxStops < g.stops.length then throw .tooManyStops
  checkStops (-1.0) g.stops

/-! ### Gradients from text -/

open Text Value

/-- An angle in degrees: bare, or in `deg`, `rad` or `turn`. -/
def readDegrees (value : List Char) : Except ValueFault Float :=
  match dropSuffix? "deg".toList value, dropSuffix? "rad".toList value,
    dropSuffix? "turn".toList value with
  | some d, _, _ => number "degree value" d
  | none, some r, _ => do pure ((← number "radian value" r) * (180.0 / 3.141592653589793))
  | none, none, some t => do pure ((← number "turn value" t) * 360.0)
  | none, none, none => number "angle" value

/-- An angle from zero up to a full turn. -/
def readAngle (text : List Char) : Except ValueFault Float := do
  return Number.floorMod (← readDegrees (trim text)) 360

/-- What stands before the last word, without the blanks between them, and that word. -/
def cutLastWord? (text : List Char) : Option (List Char × List Char) :=
  let body := trimRightBy isBlank text
  let word := (body.reverse.takeWhile fun c => !isBlank c).reverse
  let before := trimRightBy isBlank (body.take (body.length - word.length))
  if before.isEmpty || word.isEmpty then none else some (before, word)

def isOffsetChar (c : Char) : Bool := isDecimal c || c == '.'

/-- Whether a word is the offset of a stop: an optional minus, digits and points, an
optional percent sign. -/
def isOffset (word : List Char) : Bool :=
  let unsigned := match word with
    | '-' :: w => w
    | w => w
  let body := (dropSuffix? ['%'] unsigned).getD unsigned
  !body.isEmpty && body.all isOffsetChar

def readOffset (word : List Char) : Except ValueFault Float :=
  match dropSuffix? ['%'] word with
  | some percent => do pure ((← number "offset" percent) / 100.0)
  | none => number "offset" word

/-- A color and its offset, if one is given. -/
def readStop (text : List Char) : Except ValueFault (Color × Option Float) := do
  if text.all isBlank then throw .emptyStop
  match cutLastWord? text with
  | some (before, word) =>
    if isOffset word then do
      let offset ← readOffset word
      return (← Color.parse before, some offset)
    else return (← Color.parse text, none)
  | none => return (← Color.parse text, none)

/-- The offset of a stop that has none: its share of the way from the first stop to the last. -/
def evenOffset (index count : Nat) : Float :=
  if 1 < count then Float.ofNat index / Float.ofNat (count - 1) else 0.0

/-- Stops with their offsets filled in, from an index on. -/
def placeStops (count : Nat) : Nat → List (Color × Option Float) → List ColorStop
  | _, [] => []
  | index, (color, offset) :: more =>
    ⟨color, offset.getD (evenOffset index count)⟩ :: placeStops count (index + 1) more

def readStops (parts : List (List Char)) : Except ValueFault (List ColorStop) := do
  let stops ← parts.mapM readStop
  return placeStops stops.length 0 stops

def kindOf? (name : List Char) : Option GradientKind :=
  if name = "linear-gradient".toList then some .linear
  else if name = "radial-gradient".toList then some .radial
  else none

/-- The gradient that a text denotes. -/
def parse (text : List Char) : Except ValueFault Gradient := do
  let value := trim text
  let some (name, inner) := functionCall? value | throw (.gradientFormat (String.ofList text))
  let some kind := kindOf? name | throw (.gradientFormat (String.ofList text))
  match arguments inner with
  | first :: second :: more => do
    let stops ← readStops (second :: more)
    let gradient ← match kind with
      | .linear => do pure (.linear (← readAngle first) stops)
      | .radial => do
        pure (.radial (← keyword RadialShape.all RadialShape.name "radial shape"
          "circle or ellipse" first) stops)
    gradient.check
    return gradient
  | _ => throw (.gradientParts kind)

end Gradient
end UiMarkup
