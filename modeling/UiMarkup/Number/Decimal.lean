import UiMarkup.Number.Binary64

/-!
Decimal text of a double. A number is first given its significant digits, either the fewest that
read back as it or a fixed count, and then written positionally or with an exponent.
-/

namespace UiMarkup.Number

/-- `0.d₁d₂… * 10 ^ point`, with the last digit not zero. -/
structure Digits where
  digits : List Char
  point : Int

/-- The digits of `c * 10 ^ grid`. -/
def Digits.ofGrid (c : Nat) (grid : Int) : Digits :=
  let all := Nat.toDigits 10 c
  ⟨(all.reverse.dropWhile (· == '0')).reverse, all.length + grid⟩

/-- Steps an estimate up until the quotient lies below that power of ten. -/
def raiseUntilBelow (num den : Nat) : Nat → Int → Int
  | 0, k => k
  | fuel + 1, k =>
    let (p, q) := powRatio 10 k
    if num * q < den * p then k else raiseUntilBelow num den fuel (k + 1)

/-- The least `k` with `num / den < 10 ^ k`. -/
def decimalPoint (num den : Nat) : Int :=
  let low := Int.fdiv (((num.log2 : Int) - den.log2 - 1) * 30103) 100000
  raiseUntilBelow num den 4 (low - 1)

/-- The point of a decimal grid that lies in the interval from `low` to `high`, nearest to `mid`,
all three in quarters of a unit of `2 ^ exponent`. The ends belong to the interval if `closed`
holds, and of two equally near points the even one is taken. -/
def gridPoint? (low mid high : Nat) (closed : Bool) (exponent grid : Int) : Option Nat :=
  let (b, b') := powRatio 2 (exponent - 2)
  let (a, a') := powRatio 10 grid
  let left := a * b'
  let right := b * a'
  let inside (c : Nat) : Bool :=
    if closed then low * right ≤ c * left && c * left ≤ high * right
    else low * right < c * left && c * left < high * right
  let c := mid * right / left
  if inside c && inside (c + 1) then some (roundDiv (mid * right) left)
  else if inside c then some c
  else if inside (c + 1) then some (c + 1)
  else none

/-- Tries ever finer grids. -/
def shortestFrom (low mid high : Nat) (closed : Bool) (exponent : Int) : Nat → Int → Digits
  | 0, grid => .ofGrid ((gridPoint? low mid high closed exponent grid).getD 0) grid
  | fuel + 1, grid =>
    match gridPoint? low mid high closed exponent grid with
    | some c => .ofGrid c grid
    | none => shortestFrom low mid high closed exponent fuel (grid - 1)

/-- The fewest digits that read back as `mantissa * 2 ^ exponent`, and of those the nearest. -/
def shortest (mantissa : Nat) (exponent : Int) : Digits :=
  let narrow := mantissa = hiddenBit ∧ leastExponent < exponent
  let (p, q) := powRatio 2 exponent
  let point := decimalPoint (mantissa * p) q
  shortestFrom (4 * mantissa - if narrow then 1 else 2) (4 * mantissa) (4 * mantissa + 2)
    (mantissa % 2 == 0) exponent 20 (point - 1)

/-- A fixed count of significant digits, rounded to the nearest with ties to the even one. -/
def significant (count : Nat) (mantissa : Nat) (exponent : Int) : Digits :=
  let (p, q) := powRatio 2 exponent
  let grid := decimalPoint (mantissa * p) q - count
  let (a, a') := powRatio 10 grid
  .ofGrid (roundDiv (mantissa * p * a') (q * a)) grid

/-- How digits are laid out: positionally while the decimal point lies in `least ≤ point ≤ most`,
and with a fraction even where it is zero if `fraction` holds. -/
structure DecimalLayout where
  least : Int
  most : Int
  fraction : Bool

/-- A number's full text: sixteen places before the point, three zeros after it. -/
def plainLayout : DecimalLayout := ⟨-3, 16, true⟩

/-- The text in messages: six places before the point, three zeros after it. -/
def briefLayout : DecimalLayout := ⟨-3, 6, false⟩

/-- An exponent with its sign and at least two digits. -/
def exponentText (e : Int) : List Char :=
  let digits := Nat.toDigits 10 e.natAbs
  (if e < 0 then '-' else '+') :: (if digits.length < 2 then '0' :: digits else digits)

def Digits.write (layout : DecimalLayout) (d : Digits) : List Char :=
  if d.point < layout.least ∨ layout.most < d.point then
    let tail := match d.digits.drop 1 with
      | [] => []
      | more => '.' :: more
    d.digits.take 1 ++ tail ++ 'e' :: exponentText (d.point - 1)
  else
    let whole := d.digits.take d.point.toNat ++ List.replicate (d.point.toNat - d.digits.length) '0'
    let part := List.replicate (-d.point).toNat '0' ++ d.digits.drop d.point.toNat
    let part := if part.isEmpty && layout.fraction then ['0'] else part
    (if whole.isEmpty then ['0'] else whole) ++ (if part.isEmpty then [] else '.' :: part)

/-- Text of a double in a layout, with the digits that `choose` gives a value other than zero. -/
def writeFloat (layout : DecimalLayout) (choose : Nat → Int → Digits) (x : Float) : String :=
  let sign (negative : Bool) : String := if negative then "-" else ""
  match Binary64.ofFloat x with
  | .nan => "nan"
  | .infinite negative => sign negative ++ "inf"
  | .finite negative m e =>
    let digits := if m = 0 then ⟨['0'], 1⟩ else choose m e
    sign negative ++ String.ofList (digits.write layout)

/-- The fewest digits that read back, always with a point or an exponent. -/
def plainText (x : Float) : String := writeFloat plainLayout shortest x

/-- At most six significant digits. -/
def briefText (x : Float) : String := writeFloat briefLayout (significant 6) x

end UiMarkup.Number
