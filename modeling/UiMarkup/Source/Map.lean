import UiMarkup.Source.Span
import UiMarkup.Text.Utf8

/-!
Positions in a source. Offsets count bytes, lines end at line feeds only, and
columns count characters.
-/

namespace UiMarkup

/-- The bytes of a document. -/
structure SourceMap where
  bytes : List UInt8
  deriving DecidableEq

namespace SourceMap

def lineFeed : UInt8 := 0x0A

def ofText (cs : List Char) : SourceMap := ⟨Text.encodeUtf8 cs⟩

def size (m : SourceMap) : Nat := m.bytes.length

/-- The bytes that stand before an offset on its line. -/
def linePrefix (m : SourceMap) (offset : Nat) : List UInt8 :=
  ((m.bytes.take offset).reverse.takeWhile (· != lineFeed)).reverse

/-- The line and column of an offset; one outside the document counts as its nearer end. -/
def lineColumn (m : SourceMap) (offset : Int) : Int × Int :=
  let o := min offset.toNat m.size
  ((m.bytes.take o).count lineFeed + 1, (Text.decodeUtf8 (m.linePrefix o)).length + 1)

/-- The offset at which a line begins, where lines count from zero. -/
def lineStart : Nat → List UInt8 → Nat
  | 0, _ => 0
  | _ + 1, [] => 0
  | n + 1, b :: bs => if b = lineFeed then 1 + lineStart n bs else 1 + lineStart (n + 1) bs

/-- The bytes of the line that begins here, its line feed included. -/
def lineBytes (bs : List UInt8) : List UInt8 :=
  bs.takeWhile (· != lineFeed) ++ (bs.dropWhile (· != lineFeed)).take 1

/-- The first characters of a text; a negative count is taken off its end. -/
def firstChars (cs : List Char) (count : Int) : List Char :=
  if 0 ≤ count then cs.take count.toNat else cs.take (cs.length - (-count).toNat)

/-- The byte offset of a column, counted from zero, on a line, counted from one. A line outside the
document counts as its nearest one, and a column past the end of its line as that end. -/
def offsetOf (m : SourceMap) (line column : Int) : Int :=
  let index := min (line - 1).toNat (m.bytes.count lineFeed)
  let start := lineStart index m.bytes
  let head := firstChars (Text.decodeUtf8 (lineBytes (m.bytes.drop start))) column
  start + Text.utf8Length head

/-- The region between two offsets, at the position of the first. -/
def span (m : SourceMap) (start stop : Int) : Span :=
  let (line, column) := m.lineColumn start
  ⟨start, stop, line, column⟩

end SourceMap
end UiMarkup
