import UiMarkup.Text.Digit
import UiMarkup.Xml.Encoding
import UiMarkup.Xml.Fault

/-!
Pieces of markup that occur in several places: names, references, comments and
processing instructions. Every reader is given the ending of the entity, for the case
that the characters run out.
-/

namespace UiMarkup.Xml

/-- Something read from characters, and the characters left, which are no more than a bound. -/
structure Taken (α : Type) (bound : Nat) where
  value : α
  rest : List Cell
  le : rest.length ≤ bound

namespace Taken

variable {α β : Type}

/-- The same under a larger bound. -/
def widen {m n : Nat} (t : Taken α m) (h : m ≤ n) : Taken α n :=
  ⟨t.value, t.rest, Nat.le_trans t.le h⟩

def map {n : Nat} (f : α → β) (t : Taken α n) : Taken β n := ⟨f t.value, t.rest, t.le⟩

/-- A value that takes no character. -/
def nothing (a : α) (cs : List Cell) : Taken α cs.length := ⟨a, cs, Nat.le_refl _⟩

/-- A value that takes one character. -/
def one (a : α) (c : Cell) (cs : List Cell) : Taken α (c :: cs).length := ⟨a, cs, Nat.le_succ _⟩

/-- What is taken after one more character. -/
def behind (c : Cell) {cs : List Cell} (t : Taken α cs.length) : Taken α (c :: cs).length :=
  t.widen (Nat.le_succ _)

end Taken

/-- The characters run out where any character might come. -/
def Ending.stop : Ending → Stop
  | .finished => .unclosed
  | .invalid offset _ => .invalid offset
  | .truncated _ => .truncated
  | .halved _ => .unclosed

/-- The characters run out where only certain signs may come, so that an unfinished character is
as wrong as any other. -/
def Ending.stopAtSign : Ending → Stop
  | .finished => .unclosed
  | .invalid offset _ => .invalid offset
  | .truncated offset => .invalid offset
  | .halved _ => .unclosed

def isSpace (c : Char) : Bool := c == ' ' || c == '\t' || c == '\n' || c == '\r'

def Cell.isSpace (c : Cell) : Bool := Xml.isSpace c.char

def Cell.inName (c : Cell) : Bool := c.role != .none

def Cell.startsName (c : Cell) : Bool := c.role == .start

/-- The characters of some cells. -/
def textOf (cs : List Cell) : List Char := cs.map Cell.char

theorem length_dropWhile_le {α : Type} (p : α → Bool) (l : List α) :
    (l.dropWhile p).length ≤ l.length :=
  (List.dropWhile_sublist p).length_le

/-- The name characters that come next, perhaps none. -/
def nameTail (cs : List Cell) : Taken (List Cell) cs.length :=
  ⟨cs.takeWhile Cell.inName, cs.dropWhile Cell.inName, length_dropWhile_le _ _⟩

/-- A name. -/
def name (e : Ending) : (cs : List Cell) → Except Stop (Taken (List Cell) cs.length)
  | [] => .error e.stop
  | c :: cs =>
    if c.startsName then
      let tail := nameTail cs
      .ok ((tail.map (c :: ·)).behind c)
    else .error (.invalid c.offset)

def skipSpaces (cs : List Cell) : Taken Unit cs.length :=
  ⟨(), cs.dropWhile Cell.isSpace, length_dropWhile_le _ _⟩

/-- A sign that must come next. -/
def sign (e : Ending) (s : Char) : (cs : List Cell) → Except Stop (Taken Unit cs.length)
  | [] => .error e.stopAtSign
  | c :: cs => if c.char = s then .ok (.one () c cs) else .error (.invalid c.offset)

/-! ### References -/

/-- A reference to a character by its number, which may be that of no character, or to an entity. -/
inductive Reference
  | character (c : Option Char)
  | entity (name : String)
  deriving DecidableEq, Repr

/-- The character with a number, if documents may hold it. -/
def characterOf? (n : Nat) : Option Char :=
  if n < 0x110000 ∧ ¬ (0xD800 ≤ n ∧ n < 0xE000) ∧ Encoding.isForbidden n = false then
    some (Char.ofNat n)
  else none

/-- Digits of a base up to a semicolon, of which there is one at least. -/
def digitsUntilSemicolon (e : Ending) (digit? : Char → Option Nat) (base : Nat) :
    Option Nat → (cs : List Cell) → Except Stop (Taken Nat cs.length)
  | _, [] => .error e.stopAtSign
  | sofar, c :: cs =>
    match digit? c.char, sofar with
    | some d, sofar =>
      (digitsUntilSemicolon e digit? base (some (sofar.getD 0 * base + d)) cs).map (·.behind c)
    | none, some n => if c.char = ';' then .ok (.one n c cs) else .error (.invalid c.offset)
    | none, none => .error (.invalid c.offset)

def decimalDigit? (c : Char) : Option Nat := if c.isDigit then some (c.toNat - 0x30) else none

/-- A character reference after its `#`. -/
def characterReference (e : Ending) : (cs : List Cell) → Except Stop (Taken Reference cs.length)
  | [] => .error e.stopAtSign
  | c :: cs =>
    if c.char = 'x' then do
      let n ← digitsUntilSemicolon e Text.hexValue? 16 none cs
      return (n.map fun n => .character (characterOf? n)).behind c
    else do
      let n ← digitsUntilSemicolon e decimalDigit? 10 none (c :: cs)
      return n.map fun n => .character (characterOf? n)

/-- A reference after its ampersand. -/
def reference (e : Ending) : (cs : List Cell) → Except Stop (Taken Reference cs.length)
  | [] => .error e.stop
  | c :: cs =>
    if c.char = '#' then (characterReference e cs).map (·.behind c)
    else do
      let n ← name e (c :: cs)
      match h : n.rest with
      | [] => throw e.stop
      | d :: rest =>
        if d.char = ';' then
          return ⟨.entity (String.ofList (textOf n.value)), rest,
            by have := n.le; rw [h] at this; simp at this ⊢; omega⟩
        else throw (.invalid d.offset)

/-- The entities that every document has. -/
def predefined? : String → Option Char
  | "lt" => some '<'
  | "gt" => some '>'
  | "amp" => some '&'
  | "quot" => some '"'
  | "apos" => some '\''
  | _ => none

/-! ### Comments and processing instructions -/

/-- The rest of a comment, in which two hyphens come only at the end. -/
def commentBody (e : Ending) : (cs : List Cell) → Except Stop (Taken Unit cs.length)
  | [] => .error e.stop
  | c :: cs =>
    if c.char = '-' then
      match cs with
      | [] => .error e.stop
      | d :: ds =>
        if d.char = '-' then (sign e '>' ds).map fun t => (t.behind d).behind c
        else (commentBody e ds).map fun t => (t.behind d).behind c
    else (commentBody e cs).map (·.behind c)

/-- A comment after its `<!-`. -/
def comment (e : Ending) (cs : List Cell) : Except Stop (Taken Unit cs.length) := do
  let hyphen ← sign e '-' cs
  let body ← commentBody e hyphen.rest
  return body.widen hyphen.le

/-- The text of an instruction, up to its closing sign. -/
def instructionBody (e : Ending) : (cs : List Cell) → Except Stop (Taken (List Cell) cs.length)
  | [] => .error e.stop
  | c :: cs =>
    match cs with
    | [] => .error e.stop
    | d :: ds =>
      if c.char = '?' ∧ d.char = '>' then .ok ((Taken.one [] d ds).behind c)
      else (instructionBody e (d :: ds)).map fun t => (t.map (c :: ·)).behind c

/-- The target of XML declarations, which no instruction may have in other letter case. -/
def declarationTarget : List Char := ['x', 'm', 'l']

/-- An instruction: whether it is an XML declaration, and its text after the target. -/
structure Instruction where
  isDeclaration : Bool
  body : List Cell

/-- A processing instruction after its `<?`. -/
def instruction (e : Ending) (cs : List Cell) : Except Stop (Taken Instruction cs.length) := do
  let target ← name e cs
  match h : target.rest with
  | [] => throw e.stop
  | c :: rest =>
    have bound : rest.length ≤ cs.length := by
      have := target.le; rw [h] at this; simp at this; omega
    let word := textOf target.value
    if !(c.isSpace || c.char = '?') ||
      (word.map Char.toLower = declarationTarget ∧ word ≠ declarationTarget) then
      throw (.invalid c.offset)
    else if c.isSpace then do
      let body ← instructionBody e rest
      return ⟨⟨word = declarationTarget, c :: body.value⟩, body.rest, Nat.le_trans body.le bound⟩
    else do
      let close ← sign e '>' rest
      return ⟨⟨word = declarationTarget, []⟩, close.rest, Nat.le_trans close.le bound⟩

end UiMarkup.Xml
