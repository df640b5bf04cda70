import UiMarkup.Console.Lines

/-!
Lines that must fit a width. They are broken between words, and a line that is still too
wide ends in an ellipsis.
-/

namespace UiMarkup.Console

open Text

def isInk (c : Char) : Bool := !isBlank c

/-- The words of a text that begins with one, each with the blanks behind it. -/
def wordsFrom : List Char → List (List Char)
  | [] => []
  | c :: cs =>
    let after := cs.dropWhile isInk
    (c :: cs.takeWhile isInk ++ after.takeWhile isBlank) :: wordsFrom (after.dropWhile isBlank)
  termination_by cs => cs.length
  decreasing_by
    have h₁ := (List.dropWhile_sublist isInk (l := cs)).length_le
    have h₂ := (List.dropWhile_sublist isBlank (l := cs.dropWhile isInk)).length_le
    exact Nat.lt_succ_of_le (Nat.le_trans h₂ h₁)

/-- The lines that words make up, where a line ends before the word that does not fit on it. Blanks
behind a word may stand out. -/
def fillLines (width : Nat) : List Char → List (List Char) → List (List Char)
  | line, [] => [line]
  | line, word :: words =>
    if cellLength line + cellLength (trimRightBy isBlank word) ≤ width then
      fillLines width (line ++ word) words
    else line :: fillLines width word words

/-- A line broken between its words. The blanks before the first word belong to it. -/
def brokenLine (width : Nat) (line : List Char) : List (List Char) :=
  match wordsFrom (line.dropWhile isBlank) with
  | [] => [line]
  | word :: words => fillLines width (line.takeWhile isBlank ++ word) words

/-- A line without the blanks at its end that stand for characters beyond the width. -/
def withoutExcess (width : Nat) (line : List Char) : List Char :=
  let blanks := line.length - (trimRightBy isBlank line).length
  line.take (line.length - min blanks (line.length - width))

/-- The beginning of a wider text that takes a number of cells, found by halving. A character of two
cells that would reach one cell too far becomes a blank. -/
def cellPrefix (cs : List Char) (cells : Nat) : Nat → Nat → Nat → List Char
  | 0, start, _ => cs.take start
  | fuel + 1, start, stop =>
    let middle := (start + stop) / 2
    let before := cs.take (middle + 1)
    let size := cellLength before
    if size = cells + 1 && (before.getLast?.map cellWidth) = some 2 then before.dropLast ++ [' ']
    else if size = cells then before
    else if cells < size then cellPrefix cs cells fuel start middle
    else cellPrefix cs cells fuel middle stop

def ellipsis : Char := '…'

/-- A line that is no wider than a width. -/
def cropped (width : Nat) (line : List Char) : List Char :=
  if width < cellLength line then cellPrefix line (width - 1) line.length 0 line.length ++
    [ellipsis] else line

end UiMarkup.Console
