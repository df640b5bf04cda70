import UiMarkup.Text.Split
import UiMarkup.Xml.Codec
import UiMarkup.Xml.Fault

/-!
Encodings of one byte a character, as a declaration names them. Their codec must leave ASCII alone.
-/

namespace UiMarkup.Xml

/-- Bytes below 0x80 stand for their characters of ASCII and no other bytes do, where they stand for
characters at all. -/
def ExtendsAscii (chars : List (Option Char)) : Prop :=
  ∀ p ∈ chars.zipIdx, ∀ c ∈ p.1, if p.2 < 0x80 then c.toNat = p.2 else 0x80 ≤ c.toNat

instance (chars : List (Option Char)) : Decidable (ExtendsAscii chars) :=
  inferInstanceAs (Decidable (∀ p ∈ chars.zipIdx, ∀ c ∈ p.1, _))

/-- The characters of all bytes in their order, as far as they have one. -/
structure CodePage where
  chars : List (Option Char)
  extendsAscii : ExtendsAscii chars
  deriving DecidableEq, Repr

/-- The form of a name in which codecs are looked up: its parts in lower case, with underscores
between. Dots are no separators. -/
def Codec.key (name : List Char) : String :=
  let parts := (Text.piecesBy (fun c => !(c.isAlphanum || c == '.')) name).filter (!·.isEmpty)
  String.ofList ((['_'].intercalate parts).map Char.toLower)

/-- The codec with an alias, which may have underscores for dots, or with a name. -/
def Codec.find? (key : String) : Option Codec :=
  let dotless := key.map fun c => if c = '.' then '_' else c
  (all.find? fun c => c.aliases.contains key || c.aliases.contains dotless).or
    (all.find? fun c => c.name = key)

namespace CodePage

/-- The character of a byte. -/
def char? (p : CodePage) (b : UInt8) : Option Char := p.chars[b.toNat]?.join

def ofText? (text : List Char) : Option CodePage :=
  let chars := text.map fun c => if c = Codec.unassigned then none else some c
  if h : ExtendsAscii chars then some ⟨chars, h⟩ else none

/-- The code page that a declaration names, unless the codec of that name leads to none. -/
def named (name : List Char) : Except CodecFault (Option CodePage) :=
  match Codec.find? (Codec.key name) with
  | none => .error (.unknown (String.ofList name))
  | some codec =>
    match codec.decoding with
    | .chars text => .ok (ofText? text)
    | .foreign => .ok none
    | .wide => .error .multiByte
    | .binary => .error (.notText (String.ofList name))
    | .failing reason => .error (.failed (String.ofList name) reason)
    | .beyondAscii => .error .beyondAscii

/-- A byte below 0x80 is that of its own character only. -/
theorem ascii_or_beyond (p : CodePage) {b : UInt8} {c : Char} (h : p.char? b = some c) :
    if b.toNat < 0x80 then c.toNat = b.toNat else 0x80 ≤ c.toNat := by
  rw [char?, Option.join_eq_some_iff] at h
  exact p.extendsAscii (some c, b.toNat) (List.mk_mem_zipIdx_iff_getElem?.mpr h) c rfl

end CodePage
end UiMarkup.Xml
