import UiMarkup.Text.LowerCase

/-!
Names spelled alike. The distance of two texts is the least number of single characters to insert,
delete or replace; candidates are compared in lower case.
-/

namespace UiMarkup.Spelling

/-- The next row of the distance table. `left` is the entry before this column in the new row, and
`diagonal` the one above it; the row above goes along with the text that labels the columns. -/
def fillRow (c : Char) : Nat → Nat → List Char → List Nat → List Nat
  | left, diagonal, d :: ds, above :: row =>
    let entry := min (min (above + 1) (left + 1)) (diagonal + if c = d then 0 else 1)
    entry :: fillRow c entry above ds row
  | _, _, _, _ => []

/-- The row for one more character of the first text. -/
def nextRow (c : Char) (t : List Char) : List Nat → List Nat
  | [] => []
  | corner :: row => (corner + 1) :: fillRow c (corner + 1) corner t row

/-- The last entry of the last row. -/
def lastEntry (s t : List Char) : Nat :=
  (s.foldl (fun row c => nextRow c t row) (List.range (t.length + 1))).getLastD 0

/-- The distance of a text from one that is no longer. -/
def distanceOfLonger (s t : List Char) : Nat := if t.isEmpty then s.length else lastEntry s t

/-- The least number of single-character edits between two texts. The longer one has the rows. -/
def distance (s t : List Char) : Nat :=
  if s.length < t.length then distanceOfLonger t s else distanceOfLonger s t

/-- The order of candidates: by distance, then by name. -/
def notAfter (a b : String × Nat) : Bool :=
  a.2 < b.2 || (a.2 == b.2 && a.1 ≤ b.1)

/-- The candidates within a distance of the target, the closest first. -/
def similar (target : String) (candidates : List String) (maxDistance : Int) : List String :=
  let goal := Text.lower target.toList
  let measured := candidates.map fun name => (name, distance goal (Text.lower name.toList))
  ((measured.mergeSort notAfter).filter fun p => (p.2 : Int) ≤ maxDistance).map Prod.fst

/-- Names at most this far from an unknown one are offered instead of it. -/
def suggestionDistance : Int := 2

/-- The closest known name, if one is close. -/
def closest? (target : String) (candidates : List String) : Option String :=
  (similar target candidates suggestionDistance).head?

end UiMarkup.Spelling
