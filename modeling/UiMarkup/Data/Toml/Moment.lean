import UiMarkup.Data.Datum

/-!
Dates and times of TOML files. Fractions of a second are cut to six digits.
-/

namespace UiMarkup.Toml

def isLeapYear (year : Nat) : Bool := year % 4 == 0 && (year % 100 != 0 || year % 400 == 0)

def daysIn (year month : Nat) : Nat :=
  if month = 2 then if isLeapYear year then 29 else 28
  else if month ∈ [4, 6, 9, 11] then 30
  else 31

/-- So many decimal digits, their value, and what follows. -/
def digits? (count : Nat) (cs : List Char) : Option (Nat × List Char) :=
  let digits := cs.take count
  if digits.length = count && digits.all Char.isDigit then
    some (digits.foldl (fun n c => n * 10 + (c.toNat - 0x30)) 0, cs.drop count)
  else none

/-- A number of two digits within bounds. -/
def twoDigits? (least most : Nat) (cs : List Char) : Option (Nat × List Char) :=
  (digits? 2 cs).filter fun p => least ≤ p.1 && p.1 ≤ most

def expect? (c : Char) : List Char → Option (List Char)
  | d :: cs => if c = d then some cs else none
  | [] => none

/-- A number in decimal digits, so many at least. -/
def padded (width n : Nat) : String :=
  let digits := toString n
  String.ofList (List.replicate (width - digits.length) '0') ++ digits

/-- The fraction of a second as it is shown: six digits, or none if they are all zero. -/
def fractionText (digits : List Char) : String :=
  let shown := digits.take 6
  if shown.all (· == '0') then ""
  else "." ++ String.ofList (shown ++ List.replicate (6 - shown.length) '0')

/-- The text of a fraction after the seconds, and what follows. -/
def readFraction : List Char → String × List Char
  | '.' :: cs =>
    let digits := cs.takeWhile Char.isDigit
    if digits.isEmpty then ("", '.' :: cs) else (fractionText digits, cs.dropWhile Char.isDigit)
  | cs => ("", cs)

/-- The text of a time of day, and what follows. -/
def time? (cs : List Char) : Option (String × List Char) := do
  let (hour, cs) ← twoDigits? 0 23 cs
  let (minute, cs) ← twoDigits? 0 59 (← expect? ':' cs)
  let (second, cs) ← twoDigits? 0 59 (← expect? ':' cs)
  let (fraction, cs) := readFraction cs
  return (padded 2 hour ++ ":" ++ padded 2 minute ++ ":" ++ padded 2 second ++ fraction, cs)

/-- An offset in hours and minutes, after its sign. -/
def offset? (sign : String) (cs : List Char) : Option (String × List Char) := do
  let (hour, cs) ← twoDigits? 0 23 cs
  let (minute, cs) ← twoDigits? 0 59 (← expect? ':' cs)
  let shownSign := if hour = 0 ∧ minute = 0 then "+" else sign
  return (shownSign ++ padded 2 hour ++ ":" ++ padded 2 minute, cs)

/-- The text of an offset from universal time, and what follows. -/
def readOffset : List Char → String × List Char
  | [] => ("", [])
  | c :: cs =>
    if c = 'Z' ∨ c = 'z' then ("+00:00", cs)
    else if c = '+' then (offset? "+" cs).getD ("", c :: cs)
    else if c = '-' then (offset? "-" cs).getD ("", c :: cs)
    else ("", c :: cs)

/-- The time after a date, with its offset, if there is one. -/
def timeAfterDate? : List Char → Option (String × List Char)
  | [] => none
  | c :: cs =>
    if c = 'T' ∨ c = 't' ∨ c = ' ' then
      (time? cs).map fun (text, rest) =>
        let (offset, rest) := readOffset rest
        (text ++ offset, rest)
    else none

/-- Year, month and day, and what follows. -/
def date? (cs : List Char) : Option ((Nat × Nat × Nat) × List Char) := do
  let (year, cs) ← digits? 4 cs
  let (month, cs) ← twoDigits? 1 12 (← expect? '-' cs)
  let (day, cs) ← twoDigits? 1 31 (← expect? '-' cs)
  return ((year, month, day), cs)

/-- A date, a time or both, if there is one; the second answer is that there is no such day. -/
def moment? (cs : List Char) : Option (Option (Datum × List Char)) :=
  match date? cs with
  | some ((year, month, day), rest) =>
    if year = 0 || daysIn year month < day then some none
    else
      let date := padded 4 year ++ "-" ++ padded 2 month ++ "-" ++ padded 2 day
      match timeAfterDate? rest with
      | some (time, rest) => some (some (.moment .both (date ++ " " ++ time), rest))
      | none => some (some (.moment .date date, rest))
  | none => (time? cs).map fun (time, rest) => some (.moment .time time, rest)

end UiMarkup.Toml
