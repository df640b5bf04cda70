import UiMarkup.Console.Wrap
import UiMarkup.Text.Split

/-!
Tables on a console: a title in the middle, a row of headings between strong lines, and rows of
cells. Every column is as wide as its widest text, where tabs do not count; a line that its tabs
make too wide is broken.
-/

namespace UiMarkup.Console

inductive Side
  | left | right
  deriving DecidableEq, Repr

structure Column where
  heading : String
  side : Side := .left

/-- A table; every row has a cell for each column. -/
structure Table where
  title : String
  columns : List Column
  rows : List (List String)

/-- A rule across a table: what begins it, fills it, crosses it and ends it. -/
structure Ruling where
  first : String
  fill : String
  cross : String
  last : String

namespace Table

def topRuling : Ruling := ⟨"┏", "━", "┳", "┓"⟩

def headRuling : Ruling := ⟨"┡", "━", "╇", "┩"⟩

def bottomRuling : Ruling := ⟨"└", "─", "┴", "┘"⟩

def blanks (n : Nat) : String := String.ofList (List.replicate n ' ')

/-- The width of a text, of which all lines end that an editor would end, and tabs take no room. -/
def textWidth (text : String) : Nat := ((Text.lines (visible text)).map cellLength).foldl max 0

def columnWidth (t : Table) (index : Nat) (c : Column) : Nat :=
  ((t.rows.map fun row => textWidth (row.getD index "")).foldl max (textWidth c.heading))

def widths (t : Table) : List Nat := t.columns.mapIdx t.columnWidth

/-- A rule that fits the columns, which have a blank on either side. -/
def ruled (r : Ruling) (widths : List Nat) : String :=
  r.first ++ String.intercalate r.cross
    (widths.map fun w => String.join (List.replicate (w + 2) r.fill)) ++ r.last

/-- A line as wide as its column. On the right side blanks at its end do not count. -/
def padded (side : Side) (width : Nat) (line : List Char) : String :=
  match side with
  | .left =>
    let line := cropped width line
    String.ofList line ++ blanks (width - cellLength line)
  | .right =>
    let line := cropped width (Text.trimRightBy Text.isBlank line)
    blanks (width - cellLength line) ++ String.ofList line

/-- The lines of a cell, all as wide as its column. -/
def cellLines (side : Side) (width : Nat) (text : String) : List String :=
  (linesOf text).flatMap fun line =>
    (brokenLine width line).map fun part => padded side width (withoutExcess width part)

/-- One line of a row, where cells may have run out of lines. -/
def rowLine (bar : String) (widths : List Nat) (cells : List (List String)) (index : Nat) :
    String :=
  let cell (width : Nat) (lines : List String) := " " ++ lines.getD index (blanks width) ++ " "
  bar ++ String.intercalate bar (List.zipWith cell widths cells) ++ bar

/-- The lines of a row, which is as high as its highest cell. -/
def rowLines (bar : String) (sides : List Side) (widths : List Nat) (row : List String) :
    List String :=
  let cells := List.zipWith (fun (side, width) text => cellLines side width text)
    (sides.zip widths) row
  let height := (cells.map List.length).foldl max 1
  (List.range height).map (rowLine bar widths cells)

def lines (t : Table) : List String :=
  let sides := t.columns.map Column.side
  let widths := t.widths
  [ruled topRuling widths] ++ rowLines "┃" sides widths (t.columns.map Column.heading) ++
    [ruled headRuling widths] ++ t.rows.flatMap (rowLines "│" sides widths) ++
      [ruled bottomRuling widths]

/-- The cells from one border to the other. -/
def totalWidth (widths : List Nat) : Nat := (widths.map (· + 3)).foldr (· + ·) 1

/-- The title in the middle; of an odd number of blanks the larger part is on the right. -/
def titleLine (t : Table) : String :=
  let gap := totalWidth t.widths - textWidth t.title
  blanks (gap / 2) ++ t.title ++ blanks (gap - gap / 2)

def printed (t : Table) : String := String.join ((t.titleLine :: t.lines).map (· ++ "\n"))

end Table
end UiMarkup.Console
