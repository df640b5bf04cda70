import UiMarkup.Text.Utf8
import UiMarkup.Xml.Encoding

/-!
Lines and columns of XML errors. Here a line ends at a line feed, a carriage return or the two
together, and every character of the encoding takes one column.
-/

namespace UiMarkup.Xml

/-- A line and a column, both counted from zero. -/
structure Position where
  line : Nat
  column : Nat
  deriving DecidableEq, Repr

namespace Position

/-- How many more bytes a character has that begins with a given one. -/
def trailing (e : Encoding) (b : UInt8) : Nat :=
  if e ≠ .utf8 ∨ b < 0xC0 then 0
  else if b < 0xE0 then 1
  else if b < 0xF0 then 2
  else if b < 0xF5 then 3
  else 0

/-- The position after some bytes, of which the first few belong to a character
that is already counted. -/
def after (e : Encoding) : Nat → Position → List UInt8 → Position
  | _, p, [] => p
  | skip + 1, p, _ :: bs => after e skip p bs
  | 0, p, 0x0D :: 0x0A :: bs => after e 0 ⟨p.line + 1, 0⟩ bs
  | 0, p, b :: bs =>
    if b = 0x0A ∨ b = 0x0D then after e 0 ⟨p.line + 1, 0⟩ bs
    else after e (trailing e b) ⟨p.line, p.column + 1⟩ bs

/-- The position after some bytes in UTF-16. -/
def afterUnits (o : ByteOrder) (p : Position) : List UInt8 → Position
  | a :: b :: bs =>
    let n := Encoding.unit o a b
    if n = 0x0A then afterUnits o ⟨p.line + 1, 0⟩ bs
    else if n = 0x0D then
      match bs with
      | c :: d :: ds =>
        if Encoding.unit o c d = 0x0A then afterUnits o ⟨p.line + 1, 0⟩ ds
        else afterUnits o ⟨p.line + 1, 0⟩ (c :: d :: ds)
      | _ => ⟨p.line + 1, 0⟩
    else if Encoding.isLead n then
      match bs with
      | _ :: _ :: ds => afterUnits o ⟨p.line, p.column + 1⟩ ds
      | _ => ⟨p.line, p.column + 1⟩
    else afterUnits o ⟨p.line, p.column + 1⟩ bs
  | _ => p

/-- The position of a byte. -/
def ofOffset (e : Encoding) (bytes : List UInt8) (offset : Nat) : Position :=
  match e with
  | .utf16 o => afterUnits o ⟨0, 0⟩ (bytes.take offset)
  | e => after e 0 ⟨0, 0⟩ (bytes.take offset)

end Position
end UiMarkup.Xml
