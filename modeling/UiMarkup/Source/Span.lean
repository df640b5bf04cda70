/-!
Regions of a source text.
-/

namespace UiMarkup

/-- A region of a source: byte offsets with the end outside, and the position of the start as a line
and a column that both count from one. -/
structure Span where
  start : Int
  stop : Int
  line : Int
  column : Int
  deriving DecidableEq, Repr

namespace Span

/-- The empty region at the beginning. -/
def origin : Span := ⟨0, 0, 1, 1⟩

instance : Inhabited Span := ⟨origin⟩

/-- The position of the first region is not after that of the second. -/
def notAfter (s t : Span) : Bool := s.line < t.line || (s.line == t.line && s.column ≤ t.column)

/-- The smallest region that covers both, at the earlier of the two positions. -/
def merge (s t : Span) : Span :=
  let first := if s.notAfter t then s else t
  ⟨min s.start t.start, max s.stop t.stop, first.line, first.column⟩

/-- The region moved along its line. -/
def shifted (s : Span) (offset columns : Int) : Span :=
  ⟨s.start + offset, s.stop + offset, s.line, s.column + columns⟩

/-- The position as people read it. -/
def position (s : Span) : String := toString s.line ++ ":" ++ toString s.column

theorem merge_self (s : Span) : s.merge s = s := by
  simp [merge]

end Span
end UiMarkup
