import UiMarkup.Value.Scalar

/-!
Sizes of widgets and their padding.
-/

namespace UiMarkup

/-- How long a widget is: pixels, all the room left, as little as it needs, a share of the room
left, or a part of its parent. -/
inductive Length
  | fixed (pixels : Float)
  | fill
  | shrink
  | portion (share : Int)
  | percentage (percent : Float)

namespace Length

def kindName : Length → String
  | .fixed _ => "fixed"
  | .fill => "fill"
  | .shrink => "shrink"
  | .portion _ => "fill_portion"
  | .percentage _ => "percentage"

def text : Length → String
  | .fixed x => Number.briefText x
  | .fill => "fill"
  | .shrink => "shrink"
  | .portion n => "fill_portion(" ++ toString n ++ ")"
  | .percentage x => Number.briefText x ++ "%"

def isPercent (x : Float) : Bool := 0.0 ≤ x && x ≤ 100.0

def isPortion (n : Int) : Bool := 1 ≤ n && n ≤ 255

/-- Shares and parts are in range. -/
def check : Length → Except ValueFault Unit
  | .portion n => if isPortion n then .ok () else .error (.portionRange n)
  | .percentage x => if isPercent x then .ok () else .error (.lengthPercentage x)
  | _ => .ok ()

open Text Value

def readPortion (text : List Char) : Except ValueFault Int :=
  match Number.readWhole (trim text) with
  | .error _ => .error (.notNumber "fill_portion" (String.ofList text))
  | .ok n => if isPortion n then .ok n else .error (.portionRange n)

def portionCall : List Char := "fill_portion(".toList

def parse (text : List Char) : Except ValueFault Length := do
  let value := trim text
  let lowered := lower value
  if lowered = "fill".toList then return .fill
  else if lowered = "shrink".toList then return .shrink
  else if portionCall.isPrefixOf lowered && [')'].isSuffixOf lowered then
    return .portion (← readPortion (value.drop portionCall.length).dropLast)
  else
    match dropSuffix? ['%'] value with
    | some percent => return .percentage (← number "percentage" percent)
    | none => return .fixed (← number "length value" value)

end Length

/-- A percentage on its own. -/
def readPercentage (text : List Char) : Except ValueFault Float := do
  let value := Text.trim text
  match Text.dropSuffix? ['%'] value with
  | none => throw (.noPercentSign (String.ofList value))
  | some digits =>
    let x ← Value.number "percentage" digits
    if Length.isPercent x then return x else throw (.percentageRange x)

structure Padding where
  top : Float
  right : Float
  bottom : Float
  left : Float

namespace Padding

def check (p : Padding) : Except ValueFault Unit :=
  if Value.firstLeast p.top [p.right, p.bottom, p.left] < 0 then .error .negativePadding else .ok ()

open Text Value

/-- One value for all sides, two for the vertical and the horizontal ones, or one for each. -/
def parse (text : List Char) : Except ValueFault Padding :=
  match words text with
  | [all] => do
    let x ← number "padding" all
    return ⟨x, x, x, x⟩
  | [vertical, horizontal] => do
    let v ← number "vertical padding" vertical
    let h ← number "horizontal padding" horizontal
    return ⟨v, h, v, h⟩
  | [top, right, bottom, left] => do
    return ⟨← number "top padding" top, ← number "right padding" right, ← number "bottom padding"
      bottom, ← number "left padding" left⟩
  | _ => .error (.paddingFormat (String.ofList text))

end Padding
end UiMarkup
