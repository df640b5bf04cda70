import UiMarkup.Text.CodeSet
import UiMarkup.Text.LowerCase
import UiMarkup.Text.Split

/-!
Short names of pictures. A name between two colons is shown as its picture; a name that has none
is shown as it is written.
-/

namespace UiMarkup.Console

/-- The code points of the pictures whose names have at most two characters
or begin with a digit. -/
def pictures : List (String × Nat) := [
  ("100", 0x1F4AF), ("1234", 0x1F522), ("8ball", 0x1F3B1), ("+1", 0x1F44D), ("-1", 0x1F44E),
  ("a", 0x1F170), ("ab", 0x1F18E), ("b", 0x1F171), ("cd", 0x1F4BF), ("cl", 0x1F191),
  ("id", 0x1F194), ("m", 0x24C2), ("ng", 0x1F196), ("o", 0x2B55), ("o2", 0x1F17E), ("ok", 0x1F197),
  ("om", 0x1F549), ("on", 0x1F51B), ("ox", 0x1F402), ("sa", 0x1F202), ("tm", 0x2122),
  ("tv", 0x1F4FA), ("up", 0x1F199), ("v", 0x270C), ("vs", 0x1F19A), ("wc", 0x1F6BE), ("x", 0x274C)]

def picture? (name : List Char) : Option Char :=
  let lowered := String.ofList (Text.lower name)
  (pictures.find? fun p => p.1 = lowered).map fun p => Char.ofNat p.2

/-- A name without the variant behind it, and the mark that asks for the variant. -/
def splitVariant (body : List Char) : List Char × List Char :=
  match Text.dropSuffix? "-emoji".toList body, Text.dropSuffix? "-text".toList body with
  | some name, _ => (name, ['\uFE0F'])
  | none, some name => (name, ['\uFE0E'])
  | none, none => (body, [])

/-- What is shown for a name between colons. -/
def shown (body : List Char) : List Char :=
  let (name, mark) := splitVariant body
  match picture? name with
  | some c => c :: mark
  | none => ':' :: body ++ [':']

def isNameChar (c : Char) : Bool := c != ':' && !Text.isBlank c

/-- A text with pictures for their names. -/
def withPictures : Nat → List Char → List Char
  | 0, cs => cs
  | _, [] => []
  | fuel + 1, ':' :: cs =>
    match cs.dropWhile isNameChar with
    | ':' :: rest => shown (cs.takeWhile isNameChar) ++ withPictures fuel rest
    | _ => ':' :: withPictures fuel cs
  | fuel + 1, c :: cs => c :: withPictures fuel cs

end UiMarkup.Console
