import UiMarkup.Xml.Scan

/-!
The XML declaration: a version, perhaps an encoding, and perhaps whether the document stands alone.
-/

namespace UiMarkup.Xml

/-- A name and a quoted value, with the places where each begins. -/
structure Pseudo where
  name : List Char
  nameOffset : Nat
  value : List Char
  valueOffset : Nat

structure Declaration where
  encoding : Option (List Char × Nat) := none
  standalone : Bool := false

namespace Declaration

/-- The place of the first of some characters, before which the declaration's end is at `stop`. -/
def offsetOf (stop : Nat) : List Cell → Nat
  | [] => stop
  | c :: _ => c.offset

def isAscii (c : Cell) : Bool := c.char.toNat < 0x80

def isNamePart (c : Cell) : Bool := isAscii c && !c.isSpace && c.char != '='

def isValueChar (c : Char) : Bool := c.isAlphanum || c == '.' || c == '-' || c == '_'

/-- The characters after an equals sign that must come next. -/
def afterEquals (stop : Nat) : List Cell → Except Nat (List Cell)
  | [] => .error stop
  | c :: cs => if c.char = '=' then .ok cs else .error c.offset

/-- A value up to its closing quote. -/
def valueUntil (stop : Nat) (quote : Char) : List Cell → Except Nat (List Char × List Cell)
  | [] => .error stop
  | c :: cs =>
    if c.char = quote then .ok ([], cs)
    else if isValueChar c.char then (valueUntil stop quote cs).map fun (v, r) => (c.char :: v, r)
    else .error c.offset

def quotedValue (stop : Nat) : List Cell → Except Nat (List Char × Nat × List Cell)
  | [] => .error stop
  | c :: cs =>
    if c.char = '"' ∨ c.char = '\'' then
      (valueUntil stop c.char cs).map fun (v, r) => (v, offsetOf stop cs, r)
    else .error c.offset

/-- The next pair, unless only blanks are left. A place where the pair breaks off is the error. -/
def pseudo? (stop : Nat) (cs : List Cell) : Except Nat (Option Pseudo × List Cell) := do
  let some first := cs.head? | return (none, cs)
  if !first.isSpace then throw first.offset
  let body := cs.dropWhile Cell.isSpace
  if body.isEmpty then return (none, cs)
  let word := body.takeWhile isNamePart
  let after := body.dropWhile isNamePart
  if word.isEmpty then throw (offsetOf stop after)
  let after ← afterEquals stop (after.dropWhile Cell.isSpace)
  let (value, valueOffset, rest) ← quotedValue stop (after.dropWhile Cell.isSpace)
  return (some ⟨textOf word, offsetOf stop body, value, valueOffset⟩, rest)

/-- The last pair, which tells whether the document stands alone. -/
def readStandalone (stop : Nat) (p : Pseudo) (rest : List Cell) : Except Nat Bool := do
  if p.name ≠ "standalone".toList then throw p.nameOffset
  let answer ←
    if p.value = "yes".toList then pure true
    else if p.value = "no".toList then pure false
    else throw p.valueOffset
  let rest := rest.dropWhile Cell.isSpace
  if rest.isEmpty then return answer else throw (offsetOf stop rest)

/-- The pairs after the version. -/
def readOptions (stop : Nat) (p : Pseudo) (rest : List Cell) : Except Nat Declaration := do
  if p.name = "encoding".toList then
    if !(p.value.head?.any Char.isAlpha) then throw p.valueOffset
    let (next, rest) ← pseudo? stop rest
    let encoding := some (p.value, p.valueOffset)
    match next with
    | none => return { encoding }
    | some p => return { encoding, standalone := ← readStandalone stop p rest }
  else return { standalone := ← readStandalone stop p rest }

/-- The declaration whose text after the target is given, or the place where it goes wrong. -/
def parse (stop : Nat) (body : List Cell) : Except Nat Declaration := do
  let (version, rest) ← pseudo? stop body
  let some version := version | throw (offsetOf stop body)
  if version.name ≠ "version".toList then throw version.nameOffset
  let (next, rest) ← pseudo? stop rest
  match next with
  | none => return {}
  | some p => readOptions stop p rest

end Declaration
end UiMarkup.Xml
