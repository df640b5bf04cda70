import UiMarkup.Data.Toml.Moment
import UiMarkup.Data.Toml.Text
import UiMarkup.Number.Literal

/-!
Values of TOML files.
-/

namespace UiMarkup.Toml

inductive Fault
  | malformed
  | number (fault : Number.Fault)
  deriving DecidableEq, Repr

/-- A reading that may not find what it needs. -/
def orMalformed {α : Type} : Option α → Except Fault α
  | some a => .ok a
  | none => .error .malformed

/-! ### Numbers -/

/-- Digits with single underscores between them, after a first one, and what follows. -/
def moreDigits (isDigit : Char → Bool) : List Char → List Char × List Char
  | '_' :: d :: cs =>
    if isDigit d then
      let (ds, rest) := moreDigits isDigit cs
      (d :: ds, rest)
    else ([], '_' :: d :: cs)
  | c :: cs =>
    if isDigit c then
      let (ds, rest) := moreDigits isDigit cs
      (c :: ds, rest)
    else ([], c :: cs)
  | [] => ([], [])

/-- At least one digit, and what follows; the underscores are left out. -/
def someDigits? (isDigit : Char → Bool) : List Char → Option (List Char × List Char)
  | c :: cs =>
    if isDigit c then
      let (ds, rest) := moreDigits isDigit cs
      some (c :: ds, rest)
    else none
  | [] => none

def isBaseDigit (base : Nat) (c : Char) : Bool :=
  match Text.hexValue? c with
  | some n => n < base
  | none => false

/-- The base that a letter after a zero stands for. -/
def baseOf? : Char → Option Nat
  | 'x' => some 16
  | 'o' => some 8
  | 'b' => some 2
  | _ => none

/-- A whole number in a base other than ten. -/
def basedNumber? : List Char → Option (Datum × List Char)
  | '0' :: c :: cs => do
    let base ← baseOf? c
    let (digits, rest) ← someDigits? (isBaseDigit base) cs
    return (.integer (digits.foldl (fun n d => n * base + (Text.hexValue? d).getD 0) 0 : Nat), rest)
  | _ => none

def takeSign : List Char → List Char × List Char
  | '+' :: cs => (['+'], cs)
  | '-' :: cs => (['-'], cs)
  | cs => ([], cs)

/-- The digits before the point. Only a zero on its own begins with zero. -/
def wholeDigits? : List Char → Option (List Char × List Char)
  | '0' :: cs => some (['0'], cs)
  | cs => someDigits? Char.isDigit cs

/-- A point and digits, if they are there. -/
def takeFraction : List Char → List Char × List Char
  | '.' :: cs =>
    match someDigits? Char.isDigit cs with
    | some (digits, rest) => ('.' :: digits, rest)
    | none => ([], '.' :: cs)
  | cs => ([], cs)

/-- An exponent, if it is there. -/
def takeExponent : List Char → List Char × List Char
  | [] => ([], [])
  | c :: cs =>
    if c = 'e' ∨ c = 'E' then
      let (sign, body) := takeSign cs
      match someDigits? Char.isDigit body with
      | some (digits, rest) => (c :: sign ++ digits, rest)
      | none => ([], c :: cs)
    else ([], c :: cs)

/-- A number in base ten. -/
def decimalNumber? (cs : List Char) : Option (Except Fault (Datum × List Char)) := do
  let (sign, body) := takeSign cs
  let (whole, rest) ← wholeDigits? body
  let (fraction, rest) := takeFraction rest
  let (power, rest) := takeExponent rest
  if fraction.isEmpty && power.isEmpty then
    return match Number.readWhole (sign ++ whole) with
      | .ok n => .ok (.integer n, rest)
      | .error fault => .error (.number fault)
  else
    return (orMalformed (Number.readFloat? (sign ++ whole ++ fraction ++ power))).map fun x =>
      (.float x, rest)

/-- A word that stands for a value, and the value. -/
def wordValues : List (List Char × Datum) :=
  [("true".toList, .bool true), ("false".toList, .bool false)]

/-- The words for numbers that have no digits. -/
def numberWords : List (List Char × Datum) :=
  [("inf".toList, .float (Number.infinity false)), ("nan".toList, .float Number.notANumber),
    ("-inf".toList, .float (Number.infinity true)), ("+inf".toList, .float (Number.infinity false)),
    ("-nan".toList, .float Number.notANumber), ("+nan".toList, .float Number.notANumber)]

def word? (words : List (List Char × Datum)) (cs : List Char) : Option (Datum × List Char) :=
  (words.find? fun w => w.1.isPrefixOf cs).map fun w => (w.2, cs.drop w.1.length)

/-- A value that is neither a string nor made of values. -/
def plainValue (cs : List Char) : Except Fault (Datum × List Char) :=
  match word? wordValues cs with
  | some r => .ok r
  | none =>
    match moment? cs with
    | some found => orMalformed found
    | none =>
      match basedNumber? cs with
      | some r => .ok r
      | none =>
        match decimalNumber? cs with
        | some r => r
        | none => orMalformed (word? numberWords cs)

/-! ### Tables -/

/-- Changes the table behind some keys, one inside the other. Tables that are missing are made; of a
list of tables the last one is meant, where lists may be entered. -/
def changeNest (enterLists : Bool)
    (change : OrderedMap String Datum → Option (OrderedMap String Datum)) :
    List String → OrderedMap String Datum → Option (OrderedMap String Datum)
  | [], t => change t
  | k :: ks, t =>
    match t.get? k with
    | none => (changeNest enterLists change ks []).map fun u => t.put k (.table u)
    | some (.table u) => (changeNest enterLists change ks u).map fun u => t.put k (.table u)
    | some (.list items) =>
      match enterLists, items.getLast? with
      | true, some (.table u) =>
        (changeNest enterLists change ks u).map fun u =>
          t.put k (.list (items.dropLast ++ [.table u]))
      | _, _ => none
    | some _ => none

/-- Adds a value under a new key. -/
def addNew (key : String) (value : Datum) (t : OrderedMap String Datum) :
    Option (OrderedMap String Datum) :=
  if t.has key then none else some (t.put key value)

/-- The last part of a key, and those before it. -/
def splitKey (key : List String) : List String × String := (key.dropLast, key.getLastD "")

def isNest : Datum → Bool
  | .list _ => true
  | .table _ => true
  | _ => false

/-- A key with a value may not be changed any more: one of the keys begins with it. -/
def isFrozen (frozen : List (List String)) (key : List String) : Bool :=
  frozen.any (·.isPrefixOf key)

mutual

/-- A value, with the depth of nesting bounded. -/
def readValue : Nat → List Char → Except Fault (Datum × List Char)
  | 0, _ => .error .malformed
  | fuel + 1, cs =>
    match string? cs with
    | some found => (orMalformed found).map fun (text, rest) => (.string (String.ofList text), rest)
    | none =>
      match cs with
      | '[' :: cs => do
        let (items, rest) ← readItems fuel (← orMalformed (skipFiller? cs.length cs))
        return (.list items, rest)
      | '\x7b' :: cs =>
        match skip cs with
        | '\x7d' :: rest => .ok (.table [], rest)
        | cs => do
          let (fields, rest) ← readFields fuel [] [] cs
          return (.table fields, rest)
      | cs => plainValue cs

/-- The values of an array, up to and with the closing bracket. A comma may stand before it. -/
def readItems : Nat → List Char → Except Fault (List Datum × List Char)
  | 0, _ => .error .malformed
  | fuel + 1, cs =>
    match cs with
    | ']' :: rest => .ok ([], rest)
    | cs => do
      let (d, rest) ← readValue fuel cs
      let rest ← orMalformed (skipFiller? rest.length rest)
      match rest with
      | ']' :: rest => return ([d], rest)
      | ',' :: rest => do
        let (ds, rest) ← readItems fuel (← orMalformed (skipFiller? rest.length rest))
        return (d :: ds, rest)
      | _ => .error .malformed

/-- The fields of an inline table, up to and with the closing brace. -/
def readFields : Nat → List (List String) → OrderedMap String Datum → List Char →
    Except Fault (OrderedMap String Datum × List Char)
  | 0, _, _, _ => .error .malformed
  | fuel + 1, frozen, fields, cs => do
    let ((key, d), rest) ← readPair fuel cs
    if isFrozen frozen key then throw .malformed
    let (parents, last) := splitKey key
    let fields ← orMalformed (changeNest false (addNew last d) parents fields)
    match skip rest with
    | '\x7d' :: rest => return (fields, rest)
    | ',' :: rest => readFields fuel (if isNest d then key :: frozen else frozen) fields (skip rest)
    | _ => .error .malformed

/-- A key, an equals sign and a value. -/
def readPair : Nat → List Char → Except Fault ((List String × Datum) × List Char)
  | 0, _ => .error .malformed
  | fuel + 1, cs => do
    let (key, rest) ← orMalformed (key? cs.length cs)
    match rest with
    | '=' :: rest => do
      let (d, rest) ← readValue fuel (skip rest)
      return ((key, d), rest)
    | _ => .error .malformed

end

end UiMarkup.Toml
