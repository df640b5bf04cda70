import UiMarkup.Text.Utf8
import UiMarkup.Xml.CodePage
import UiMarkup.Xml.Name

/-!
The characters of an XML entity, each with the byte at which it stands. Reading ends at the first
byte that is no character of XML. Characters are Unicode scalar values: half of a pair of UTF-16 is
none, so that no text holds one.
-/

namespace UiMarkup.Xml

/-- What a character can be in a name. -/
inductive NameRole
  | start | part | none
  deriving DecidableEq, Repr

def NameRole.ofChar (c : Char) : NameRole :=
  if isNameStart c then .start else if isNameChar c then .part else .none

/-- A character at its place. One that no table of single bytes has is far. -/
structure Cell where
  char : Char
  offset : Nat
  role : NameRole
  far : Bool

/-- A character in UTF-8. -/
def Cell.ofChar (c : Char) (offset : Nat) : Cell := ⟨c, offset, .ofChar c, 0x80 ≤ c.toNat⟩

/-- How the characters end: with the entity, at a byte that cannot be read, in a character that the
entity cuts off, or with a byte where a unit has two. A byte that cannot be read may at least begin
a character of several bytes. -/
inductive Ending
  | finished
  | invalid (offset : Nat) (begins : Bool)
  | truncated (offset : Nat)
  | halved (offset : Nat)
  deriving DecidableEq, Repr

/-- Where half a unit stands at the end. -/
def Ending.half? : Ending → Option Nat
  | .halved offset => some offset
  | _ => none

/-- The characters of an entity, their ending, and the number of its bytes. -/
structure Input where
  cells : List Cell
  ending : Ending
  size : Nat

inductive ByteOrder
  | big | little
  deriving DecidableEq, Repr

inductive Encoding
  | utf8 | latin1 | ascii
  | utf16 (order : ByteOrder)
  | page (page : CodePage)
  deriving DecidableEq, Repr

namespace Encoding

/-- Control characters other than tab and line ends, and the two that are no characters, stand in no
document. -/
def isForbidden (n : Nat) : Bool :=
  (n < 0x20 && n != 0x9 && n != 0xA && n != 0xD) || n == 0xFFFE || n == 0xFFFF

/-- A character in front of the others. -/
def push (c : Cell) (more : List Cell × Ending) : List Cell × Ending := (c :: more.1, more.2)

/-- A character of UTF-8 in front of the others, or the end if it is forbidden. -/
def emit (n start : Nat) (more : List Cell × Ending) : List Cell × Ending :=
  if isForbidden n then ([], .invalid start (decide (0x80 ≤ n)))
  else push (.ofChar (Char.ofNat n) start) more

/-- The bytes that never start a character but ask for one more. -/
def isOverlongLead (b : UInt8) : Bool := b == 0xC0 || b == 0xC1

/-- Reads UTF-8, perhaps after the beginning of a character that starts at a given offset. -/
def utf8Cells : Option (Text.Pending × Nat) → Nat → List UInt8 → List Cell × Ending
  | none, _, [] => ([], .finished)
  | some (_, start), _, [] => ([], .truncated start)
  | some (p, start), offset, b :: bs =>
    if p.accepts b then
      if p.missing ≤ 1 then emit (p.bitsWith b) start (utf8Cells none (offset + 1) bs)
      else utf8Cells (some (⟨p.missing - 1, p.bitsWith b, 0x80, 0xBF⟩, start)) (offset + 1) bs
    else if bs.length + 1 < p.missing then ([], .truncated start)
    else ([], .invalid start true)
  | none, offset, b :: bs =>
    match Text.Lead.ofByte b with
    | .whole c => emit c.toNat offset (utf8Cells none (offset + 1) bs)
    | .opens p => utf8Cells (some (p, offset)) (offset + 1) bs
    | .invalid =>
      if isOverlongLead b && bs.isEmpty then ([], .truncated offset)
      else ([], .invalid offset (isOverlongLead b))

/-- The first 256 characters, where they are looked up by their number. Three signs begin names
there, and only there. -/
def latin1Role (n : Nat) : NameRole :=
  if n = 0xAA ∨ n = 0xB5 ∨ n = 0xBA then .start else .ofChar (Char.ofNat n)

/-- Reads one byte a character; the bytes up to a limit are characters. -/
def byteCells (limit : Nat) : Nat → List UInt8 → List Cell × Ending
  | _, [] => ([], .finished)
  | offset, b :: bs =>
    if isForbidden b.toNat || limit < b.toNat then ([], .invalid offset false)
    else
      push ⟨Char.ofNat b.toNat, offset, latin1Role b.toNat, false⟩ (byteCells limit (offset + 1) bs)

/-- Reads one byte a character, from a code page. -/
def pageCells (p : CodePage) : Nat → List UInt8 → List Cell × Ending
  | _, [] => ([], .finished)
  | offset, b :: bs =>
    match p.char? b with
    | none => ([], .invalid offset false)
    | some c =>
      if isForbidden c.toNat then ([], .invalid offset false)
      else push ⟨c, offset, .ofChar c, false⟩ (pageCells p (offset + 1) bs)

/-! ### UTF-16 -/

/-- The unit of two bytes. -/
def unit : ByteOrder → UInt8 → UInt8 → Nat
  | .big, a, b => a.toNat * 0x100 + b.toNat
  | .little, a, b => b.toNat * 0x100 + a.toNat

/-- Begins a character of two units. -/
def isLead (n : Nat) : Bool := 0xD800 ≤ n && n < 0xDC00

/-- Ends a character of two units. -/
def isTrail (n : Nat) : Bool := 0xDC00 ≤ n && n < 0xE000

/-- The character of two units. Whether the second one ends a character is not asked. -/
def pairOf (lead trail : Nat) : Char :=
  Char.ofNat (0x10000 + lead % 0x400 * 0x400 + trail % 0x400)

/-- The character of a unit. -/
def unitCell (n offset : Nat) : Cell :=
  if n < 0x100 then ⟨Char.ofNat n, offset, latin1Role n, false⟩
  else ⟨Char.ofNat n, offset, .ofChar (Char.ofNat n), true⟩

/-- Reads UTF-16. -/
def utf16Cells (o : ByteOrder) : Nat → List UInt8 → List Cell × Ending
  | _, [] => ([], .finished)
  | offset, [_] => ([], .halved offset)
  | offset, a :: b :: bs =>
    let n := unit o a b
    if isLead n then
      match bs with
      | c :: d :: bs =>
        push ⟨pairOf n (unit o c d), offset, .none, true⟩ (utf16Cells o (offset + 4) bs)
      | _ => ([], .truncated offset)
    else if isTrail n || isForbidden n then ([], .invalid offset false)
    else push (unitCell n offset) (utf16Cells o (offset + 2) bs)

/-! ### Entities -/

/-- The number of bytes of the signs of ASCII. -/
def unitSize : Encoding → Nat
  | .utf16 _ => 2
  | _ => 1

/-- The characters of some bytes that begin at an offset. -/
def cells (e : Encoding) (offset : Nat) (bytes : List UInt8) : List Cell × Ending :=
  match e with
  | .utf8 => utf8Cells none offset bytes
  | .latin1 => byteCells 0xFF offset bytes
  | .ascii => byteCells 0x7F offset bytes
  | .utf16 order => utf16Cells order offset bytes
  | .page p => pageCells p offset bytes

def input (e : Encoding) (offset : Nat) (bytes : List UInt8) : Input :=
  let (cells, ending) := e.cells offset bytes
  ⟨cells, ending, offset + bytes.length⟩

/-! ### Names -/

/-- The encoding with a name that needs no codec, where the text of the name is in a known one.
UTF-16 without a byte order is in that of the name. -/
def known? (current : Encoding) (name : List Char) : Option Encoding :=
  match String.ofList (name.map Char.toUpper), current with
  | "UTF-8", _ => some .utf8
  | "ISO-8859-1", _ => some .latin1
  | "US-ASCII", _ => some .ascii
  | "UTF-16", .utf16 order => some (.utf16 order)
  | "UTF-16", _ => some (.utf16 .big)
  | "UTF-16BE", _ => some (.utf16 .big)
  | "UTF-16LE", _ => some (.utf16 .little)
  | _, _ => none

/-- The units of one encoding are those of the other. -/
def sameUnits : Encoding → Encoding → Bool
  | .utf16 a, .utf16 b => a = b
  | .utf16 _, _ => false
  | _, .utf16 _ => false
  | _, _ => true

end Encoding

/-- The characters of a text on its own, which counts its bytes from zero. -/
def Input.ofText (cs : List Char) : Input := Encoding.utf8.input 0 (Text.encodeUtf8 cs)

end UiMarkup.Xml
