/-!
UTF-8. Writing is that of the library; reading accepts any bytes and puts one replacement character
for each longest run of bytes that starts a character and cannot be finished.
-/

namespace UiMarkup.Text

def encodeUtf8 (cs : List Char) : List UInt8 := cs.flatMap String.utf8EncodeChar

/-- The number of bytes that a text takes. -/
def utf8Length (cs : List Char) : Nat := (cs.map Char.utf8Size).foldr (· + ·) 0

def replacement : Char := '\uFFFD'

/-- An unfinished character: how many bytes are still to come, the bits so far, and the range of the
next byte. -/
structure Pending where
  missing : Nat
  bits : Nat
  low : UInt8
  high : UInt8

/-- What a byte means at the start of a character. -/
inductive Lead
  | whole (c : Char)
  | opens (p : Pending)
  | invalid

def Lead.ofByte (b : UInt8) : Lead :=
  let n := b.toNat
  if n < 0x80 then .whole (Char.ofNat n)
  else if n < 0xC2 then .invalid
  else if n < 0xE0 then .opens ⟨1, n - 0xC0, 0x80, 0xBF⟩
  else if n = 0xE0 then .opens ⟨2, 0, 0xA0, 0xBF⟩
  else if n = 0xED then .opens ⟨2, 0xD, 0x80, 0x9F⟩
  else if n < 0xF0 then .opens ⟨2, n - 0xE0, 0x80, 0xBF⟩
  else if n = 0xF0 then .opens ⟨3, 0, 0x90, 0xBF⟩
  else if n < 0xF4 then .opens ⟨3, n - 0xF0, 0x80, 0xBF⟩
  else if n = 0xF4 then .opens ⟨3, 4, 0x80, 0x8F⟩
  else .invalid

def Pending.accepts (p : Pending) (b : UInt8) : Bool := p.low ≤ b && b ≤ p.high

/-- The bits with those of an accepted byte. -/
def Pending.bitsWith (p : Pending) (b : UInt8) : Nat := p.bits * 64 + (b.toNat - 0x80)

/-- Reads on after an unfinished character, if there is one. -/
def decodeFrom : Option Pending → List UInt8 → List Char
  | none, [] => []
  | some _, [] => [replacement]
  | some p, b :: bs =>
    if p.accepts b then
      if p.missing ≤ 1 then Char.ofNat (p.bitsWith b) :: decodeFrom none bs
      else decodeFrom (some ⟨p.missing - 1, p.bitsWith b, 0x80, 0xBF⟩) bs
    else
      replacement ::
        match Lead.ofByte b with
        | .whole c => c :: decodeFrom none bs
        | .opens q => decodeFrom (some q) bs
        | .invalid => replacement :: decodeFrom none bs
  | none, b :: bs =>
    match Lead.ofByte b with
    | .whole c => c :: decodeFrom none bs
    | .opens q => decodeFrom (some q) bs
    | .invalid => replacement :: decodeFrom none bs

/-- The text of any bytes. -/
def decodeUtf8 (bs : List UInt8) : List Char := decodeFrom none bs

end UiMarkup.Text
