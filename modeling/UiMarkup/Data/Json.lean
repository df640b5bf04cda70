import UiMarkup.Data.Datum
import UiMarkup.Number.Literal
import UiMarkup.Text.Digit

/-!
Reading JSON. The three words for numbers out of range are read too; of two equal
keys the last one counts.
-/

namespace UiMarkup.Json

inductive Fault
  | malformed
  | number (fault : Number.Fault)
  deriving DecidableEq, Repr

def isSpace (c : Char) : Bool := c == ' ' || c == '\t' || c == '\n' || c == '\r'

def skip (cs : List Char) : List Char := cs.dropWhile isSpace

/-- What a backslash and one character stand for. -/
def unescape? : Char → Option Char
  | '"' => some '"'
  | '\\' => some '\\'
  | '/' => some '/'
  | 'b' => some '\x08'
  | 'f' => some '\x0c'
  | 'n' => some '\n'
  | 'r' => some '\r'
  | 't' => some '\t'
  | _ => none

/-- The code points and code units of a string after its opening quote, and what
follows the closing one. -/
def stringUnits : List Char → Option (List Nat × List Char)
  | [] => none
  | '"' :: cs => some ([], cs)
  | '\\' :: 'u' :: a :: b :: c :: d :: cs => do
    let unit ← Text.hexNumber? [a, b, c, d]
    let (units, rest) ← stringUnits cs
    return (unit :: units, rest)
  | '\\' :: c :: cs => do
    let x ← unescape? c
    let (units, rest) ← stringUnits cs
    return (x.toNat :: units, rest)
  | c :: cs =>
    if c < ' ' then none
    else (stringUnits cs).map fun (units, rest) => (c.toNat :: units, rest)

/-- Joins pairs of surrogates; one that stands alone becomes a replacement character. -/
def joinUnits : List Nat → List Char
  | [] => []
  | [u] => [if 0xD800 ≤ u ∧ u < 0xE000 then '\uFFFD' else Char.ofNat u]
  | u :: v :: more =>
    if 0xD800 ≤ u ∧ u < 0xDC00 ∧ 0xDC00 ≤ v ∧ v < 0xE000 then
      Char.ofNat (0x10000 + (u - 0xD800) * 0x400 + (v - 0xDC00)) :: joinUnits more
    else (if 0xD800 ≤ u ∧ u < 0xE000 then '\uFFFD' else Char.ofNat u) :: joinUnits (v :: more)

/-- A string after its opening quote. -/
def readString (cs : List Char) : Except Fault (String × List Char) :=
  match stringUnits cs with
  | some (units, rest) => .ok (String.ofList (joinUnits units), rest)
  | none => .error .malformed

/-- The digits of a fraction with their point, if there is one. -/
def takeFraction : List Char → List Char × List Char
  | '.' :: cs =>
    let ds := cs.takeWhile Char.isDigit
    if ds.isEmpty then ([], '.' :: cs) else ('.' :: ds, cs.dropWhile Char.isDigit)
  | cs => ([], cs)

/-- An exponent, if there is one. -/
def takeExponent : List Char → List Char × List Char
  | [] => ([], [])
  | c :: cs =>
    if c = 'e' ∨ c = 'E' then
      let (sign, body) := match cs with
        | '+' :: b => (['+'], b)
        | '-' :: b => (['-'], b)
        | b => ([], b)
      let ds := body.takeWhile Char.isDigit
      if ds.isEmpty then ([], c :: cs) else (c :: sign ++ ds, body.dropWhile Char.isDigit)
    else ([], c :: cs)

/-- A number after its sign. -/
def readNumber (sign : List Char) (cs : List Char) : Except Fault (Datum × List Char) :=
  let (whole, rest) := match cs with
    | '0' :: rest => (['0'], rest)
    | cs => (cs.takeWhile Char.isDigit, cs.dropWhile Char.isDigit)
  if whole.isEmpty then .error .malformed
  else
    let (part, rest) := takeFraction rest
    let (power, rest) := takeExponent rest
    if part.isEmpty && power.isEmpty then
      match Number.readWhole (sign ++ whole) with
      | .ok n => .ok (.integer n, rest)
      | .error fault => .error (.number fault)
    else
      match Number.readFloat? (sign ++ whole ++ part ++ power) with
      | some x => .ok (.float x, rest)
      | none => .error .malformed

/-- A word that stands for a value, and the value. -/
def wordValues : List (List Char × Datum) :=
  [("null".toList, .null), ("true".toList, .bool true), ("false".toList, .bool false),
    ("NaN".toList, .float Number.notANumber), ("Infinity".toList, .float (Number.infinity false)),
    ("-Infinity".toList, .float (Number.infinity true))]

def readWord? (cs : List Char) : Option (Datum × List Char) :=
  (wordValues.find? fun w => w.1.isPrefixOf cs).map fun w => (w.2, cs.drop w.1.length)

mutual

/-- A value, with the depth of nesting bounded. -/
def readValue : Nat → List Char → Except Fault (Datum × List Char)
  | 0, _ => .error .malformed
  | fuel + 1, cs =>
    match readWord? cs with
    | some r => .ok r
    | none =>
      match cs with
      | '"' :: cs => (readString cs).map fun (s, rest) => (.string s, rest)
      | '[' :: cs =>
        match skip cs with
        | ']' :: rest => .ok (.list [], rest)
        | cs => (readItems fuel cs).map fun (items, rest) => (.list items, rest)
      | '\x7b' :: cs =>
        match skip cs with
        | '\x7d' :: rest => .ok (.table [], rest)
        | cs => (readFields fuel [] cs).map fun (fields, rest) => (.table fields, rest)
      | '-' :: cs => readNumber ['-'] cs
      | cs => readNumber [] cs

/-- Values between commas, up to and with the closing bracket. -/
def readItems : Nat → List Char → Except Fault (List Datum × List Char)
  | 0, _ => .error .malformed
  | fuel + 1, cs => do
    let (d, rest) ← readValue fuel cs
    match skip rest with
    | ']' :: rest => return ([d], rest)
    | ',' :: rest => do
      let (ds, rest) ← readItems fuel (skip rest)
      return (d :: ds, rest)
    | _ => .error .malformed

/-- Pairs between commas, up to and with the closing brace. -/
def readFields :
    Nat → OrderedMap String Datum → List Char → Except Fault (OrderedMap String Datum × List Char)
  | 0, _, _ => .error .malformed
  | fuel + 1, fields, cs =>
    match cs with
    | '"' :: cs => do
      let (key, rest) ← readString cs
      match skip rest with
      | ':' :: rest => do
        let (d, rest) ← readValue fuel (skip rest)
        match skip rest with
        | '\x7d' :: rest => return (fields.put key d, rest)
        | ',' :: rest => readFields fuel (fields.put key d) (skip rest)
        | _ => .error .malformed
      | _ => .error .malformed
    | _ => .error .malformed

end

/-- The value that a whole text is. -/
def parse (text : List Char) : Except Fault Datum := do
  let (d, rest) ← readValue (text.length + 1) (skip text)
  if (skip rest).isEmpty then return d else .error .malformed

end UiMarkup.Json
