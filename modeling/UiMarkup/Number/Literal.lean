import UiMarkup.Number.Binary64
import UiMarkup.Text.Digit
import UiMarkup.Text.LowerCase
import UiMarkup.Text.Printable
import UiMarkup.Text.Split

/-!
Reading numbers. Blanks around a number do not count, digits may be those of any script, and a
single underscore may stand between two digits.
-/

namespace UiMarkup.Number

open Text

/-- Why a text is no number. -/
inductive Fault
  | notWhole (text : String)
  | notDecimal (text : String)
  | tooManyDigits (count : Nat)
  deriving DecidableEq, Repr

/-- Whole numbers of more digits are refused. -/
def maxDigits : Nat := 4300

def Fault.message : Fault → String
  | .notWhole text =>
    "invalid literal for int() with base 10: " ++ String.ofList ((quoted text.toList).take 200)
  | .notDecimal text => "could not convert string to float: " ++ String.ofList (quoted text.toList)
  | .tooManyDigits count =>
    "Exceeds the limit (" ++ toString maxDigits ++
      " digits) for integer string conversion: value has " ++ toString count ++
        " digits; use sys.set_int_max_str_digits() to increase the limit"

/-- The blanks that may stand around a number: all but the information separators. -/
def isMargin (c : Char) : Bool := isBlank c && !('\x1c' ≤ c && c ≤ '\x1f')

/-- Decimal digits of any script become those of ASCII. -/
def plainDigit (c : Char) : Char :=
  match decimalValue? c with
  | some v => Char.ofNat (0x30 + v)
  | none => c

/-- Drops the underscores, each of which must stand between two digits. -/
def dropUnderscores : Bool → List Char → Option (List Char)
  | _, [] => some []
  | afterDigit, '_' :: rest =>
    match rest with
    | d :: _ => if afterDigit && d.isDigit then dropUnderscores false rest else none
    | [] => none
  | _, c :: rest => (dropUnderscores c.isDigit rest).map (c :: ·)

/-- A sign in front, as whether the number is negative, and the rest. -/
def takeSign : List Char → Bool × List Char
  | '-' :: cs => (true, cs)
  | '+' :: cs => (false, cs)
  | cs => (false, cs)

/-- The value of ASCII digits. -/
def digitsValue (cs : List Char) : Nat := cs.foldl (fun n c => n * 10 + (c.toNat - 0x30)) 0

def splitDigits (cs : List Char) : List Char × List Char :=
  (cs.takeWhile Char.isDigit, cs.dropWhile Char.isDigit)

def signed (negative : Bool) (n : Nat) : Int := if negative then -(n : Int) else n

/-- A whole number: an optional sign and digits. -/
def readWhole (text : List Char) : Except Fault Int :=
  let cs := (trimBy isMargin text).map plainDigit
  let (negative, body) := takeSign cs
  let digits := (body.takeWhile fun c => c.isDigit || c == '_').filter Char.isDigit
  if maxDigits < digits.length then .error (.tooManyDigits digits.length)
  else
    match dropUnderscores false body with
    | some ds => if !ds.isEmpty && ds.all Char.isDigit then .ok (signed negative (digitsValue ds))
      else .error (.notWhole (String.ofList text))
    | none => .error (.notWhole (String.ofList text))

/-- The exponent after the digits, if the rest is one or is empty. -/
def readExponent : List Char → Option Int
  | [] => some 0
  | c :: cs =>
    if c = 'e' ∨ c = 'E' then
      let (negative, ds) := takeSign cs
      if !ds.isEmpty && ds.all Char.isDigit then some (signed negative (digitsValue ds)) else none
    else none

/-- Digits with an optional point and exponent. -/
def readUnsigned (negative : Bool) (cs : List Char) : Option Float :=
  let (whole, rest) := splitDigits cs
  let (part, rest) := match rest with
    | '.' :: more => splitDigits more
    | rest => ([], rest)
  if whole.isEmpty && part.isEmpty then none
  else (readExponent rest).map fun e =>
    nearestDecimal negative (digitsValue (whole ++ part)) (e - part.length)

def notANumber : Float := Float.ofBits 0x7FF8000000000000

/-- A decimal number, an infinity or "nan". -/
def readFloat? (text : List Char) : Option Float := do
  let cs ← dropUnderscores false ((trimBy isMargin text).map plainDigit)
  let (negative, body) := takeSign cs
  let word := String.ofList (body.map Char.toLower)
  if word = "inf" ∨ word = "infinity" then some (infinity negative)
  else if word = "nan" then some notANumber
  else readUnsigned negative body

def readFloat (text : List Char) : Except Fault Float :=
  match readFloat? text with
  | some x => .ok x
  | none => .error (.notDecimal (String.ofList text))

end UiMarkup.Number
