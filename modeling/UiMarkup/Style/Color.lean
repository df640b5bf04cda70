import UiMarkup.Number.Rounding
import UiMarkup.Style.ColorName
import UiMarkup.Text.Digit
import UiMarkup.Value.Scalar

/-!
Colors with four channels between zero and one, and the texts that denote them: hexadecimal digits,
`rgb(…)`, `hsl(…)` and names.
-/

namespace UiMarkup

structure Color where
  red : Float
  green : Float
  blue : Float
  alpha : Float
  deriving DecidableEq

namespace Color

def black : Color := ⟨0, 0, 0, 1⟩

/-- A channel of eight bits. -/
def channelOfByte (n : Nat) : Float := Float.ofNat n / 255.0

def ofBytes (r g b : Nat) (alpha : Float) : Color :=
  ⟨channelOfByte r, channelOfByte g, channelOfByte b, alpha⟩

def inUnit (x : Float) : Bool := 0.0 ≤ x && x ≤ 1.0

def checkChannel (channel : Channel) (x : Float) : Except ValueFault Unit :=
  if inUnit x then .ok () else .error (.channelRange channel x)

/-- All channels lie between zero and one. -/
def check (c : Color) : Except ValueFault Unit := do
  checkChannel .red c.red
  checkChannel .green c.green
  checkChannel .blue c.blue
  checkChannel .alpha c.alpha

/-- Why a channel has no hexadecimal digits. -/
inductive HexFault
  | notANumber
  | infinite
  deriving DecidableEq, Repr

def HexFault.message : HexFault → String
  | .notANumber => "cannot convert float NaN to integer"
  | .infinite => "cannot convert float infinity to integer"

/-- A whole number in hexadecimal digits, two characters wide at least. -/
def hexText (n : Int) : String :=
  let digits := Nat.toDigits 16 n.natAbs
  if n < 0 then String.ofList ('-' :: digits)
  else String.ofList (List.replicate (2 - digits.length) '0' ++ digits)

/-- The digits of a channel, rounded to the nearest multiple of 1/255. -/
def channelHex (x : Float) : Except HexFault String :=
  match Number.roundWhole? (x * 255.0) with
  | some n => .ok (hexText n)
  | none => .error (if x.isNaN then .notANumber else .infinite)

/-- `#rrggbb`, with two more digits for a color that is not opaque. -/
def toHex (c : Color) : Except HexFault String := do
  let r ← channelHex c.red
  let g ← channelHex c.green
  let b ← channelHex c.blue
  let a ← if c.alpha < 1.0 then channelHex c.alpha else pure ""
  return "#" ++ r ++ g ++ b ++ a

/-! ### Colors from text -/

open Text Value

/-- A color from the values of its digits: one or two for each channel, and as many for
alpha if it is given. -/
def ofHexDigits? : List Nat → Option Color
  | [r, g, b] => some (ofBytes (r * 17) (g * 17) (b * 17) 1.0)
  | [r, g, b, a] => some (ofBytes (r * 17) (g * 17) (b * 17) (channelOfByte (a * 17)))
  | [r, r', g, g', b, b'] => some (ofBytes (r * 16 + r') (g * 16 + g') (b * 16 + b') 1.0)
  | [r, r', g, g', b, b', a, a'] =>
    some (ofBytes (r * 16 + r') (g * 16 + g') (b * 16 + b') (channelOfByte (a * 16 + a')))
  | _ => none

/-- A color by its name in lower case. -/
def ofName? (name : String) : Option Color :=
  if name = transparentName then some ⟨0, 0, 0, 0⟩
  else (namedColors.find? fun p => p.1 = name).map fun p =>
    ofBytes (p.2 / 65536) (p.2 / 256 % 256) (p.2 % 256) 1.0

/-- The alpha component of a color function. -/
def readAlpha (text : String) (component : List Char) : Except ValueFault Float := do
  let alpha ← match dropSuffix? ['%'] component with
    | some percent => do pure ((← number "alpha" percent) / 100.0)
    | none => number "alpha" component
  if inUnit alpha then .ok alpha else .error (.color text .alphaRange)

/-- The alpha component after the first three, if there is one. -/
def readLastAlpha (text : String) : List (List Char) → Except ValueFault Float
  | [] => .ok 1.0
  | a :: _ => readAlpha text a

def readChannel (text : String) (component : List Char) : Except ValueFault Float := do
  let channel ← match dropSuffix? ['%'] component with
    | some percent => do pure ((← number "color component" percent) / 100.0)
    | none => do pure ((← number "color component" component) / 255.0)
  if inUnit channel then .ok channel else .error (.color text .componentRange)

def readPercent (text : String) (component : List Char) : Except ValueFault Float :=
  match dropSuffix? ['%'] component with
  | none => .error (.color text .missingPercent)
  | some percent => do
    let x := (← number "color component" percent) / 100.0
    if inUnit x then .ok x else .error (.color text .componentRange)

/-- One channel of a color given by hue, between two levels. -/
def hueLevel (low high hue : Float) : Float :=
  let hue := Number.floorMod hue 1
  if hue < 1.0 / 6.0 then low + (high - low) * hue * 6.0
  else if hue < 0.5 then high
  else if hue < 2.0 / 3.0 then low + (high - low) * (2.0 / 3.0 - hue) * 6.0
  else low

/-- The color of a hue, a saturation and a lightness, each as a part of one. -/
def ofHsl (hue saturation lightness alpha : Float) : Color :=
  if saturation == 0.0 then ⟨lightness, lightness, lightness, alpha⟩
  else
    let high := if lightness ≤ 0.5 then lightness * (1.0 + saturation)
      else lightness + saturation - lightness * saturation
    let low := 2.0 * lightness - high
    let third : Float := 1.0 / 3.0
    ⟨hueLevel low high (hue + third), hueLevel low high hue, hueLevel low high (hue - third), alpha⟩

def readRgb (text : String) : List (List Char) → Except ValueFault Color
  | r :: g :: b :: more =>
    if 1 < more.length then .error (.color text .componentCount)
    else do
      let r ← readChannel text r
      let g ← readChannel text g
      let b ← readChannel text b
      return ⟨r, g, b, ← readLastAlpha text more⟩
  | _ => .error (.color text .componentCount)

def readHsl (text : String) : List (List Char) → Except ValueFault Color
  | h :: s :: l :: more =>
    if 1 < more.length then .error (.color text .componentCount)
    else do
      let hue := Number.floorMod (← number "hue" ((dropSuffix? "deg".toList h).getD h)) 360 / 360.0
      let saturation ← readPercent text s
      let lightness ← readPercent text l
      return ofHsl hue saturation lightness (← readLastAlpha text more)
  | _ => .error (.color text .componentCount)

def isComponentGap (c : Char) : Bool := isBlank c || c == ',' || c == '/'

/-- The color that a text denotes. -/
def parse (text : List Char) : Except ValueFault Color :=
  let value := trim text
  let lowered := lower value
  let whole := String.ofList text
  match ofName? (String.ofList lowered) with
  | some c => .ok c
  | none =>
    match value with
    | '#' :: digits =>
      match (digits.mapM hexValue?).bind ofHexDigits? with
      | some c => .ok c
      | none => .error (.color whole .hexFormat)
    | _ =>
      match functionCall? lowered with
      | none => .error (.color whole .unrecognized)
      | some (name, inner) =>
        let components := (piecesBy isComponentGap inner).filter (!·.isEmpty)
        if name = "rgb".toList ∨ name = "rgba".toList then readRgb whole components
        else if name = "hsl".toList ∨ name = "hsla".toList then readHsl whole components
        else .error (.color whole .unrecognized)

end Color
end UiMarkup
