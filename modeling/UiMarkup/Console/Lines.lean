import UiMarkup.Console.CellWidth
import UiMarkup.Text.Split

/-!
Text as it appears on a console: without the control characters that would move the cursor, on lines
of its own, with blanks for tabs.
-/

namespace UiMarkup.Console

/-- Bell, backspace, vertical tab, form feed and carriage return. -/
def movesCursor (c : Char) : Bool :=
  c == '\x07' || c == '\x08' || c == '\x0b' || c == '\x0c' || c == '\r'

/-- The distance between two places to which tabs lead. -/
def tabStop : Nat := 8

/-- A line with blanks for its tabs, from some cell on. A tab is one blank at least. -/
def expandTabs : Nat → List Char → List Char
  | _, [] => []
  | cell, '\t' :: cs =>
    let blanks := tabStop - cell % tabStop
    List.replicate blanks ' ' ++ expandTabs (cell + blanks) cs
  | cell, c :: cs => c :: expandTabs (cell + cellWidth c) cs

/-- The characters of a text that stay. -/
def visible (text : String) : List Char := text.toList.filter fun c => !movesCursor c

/-- The lines of a text. -/
def linesOf (text : String) : List (List Char) :=
  (Text.pieces '\n' (visible text)).map (expandTabs 0)

/-- A text with line feeds after all its lines. -/
def printed (text : String) : String :=
  String.join ((linesOf text).map fun line => String.ofList line ++ "\n")

end UiMarkup.Console
