/-!
Double precision numbers as exact values: a sign, a whole number and a power of two. Rounding a
quotient of whole numbers to the nearest double is exact, with ties to the even neighbour.
-/

namespace UiMarkup.Number

/-- What the 64 bits of a double stand for. A finite one is `mantissa * 2 ^ exponent`. -/
inductive Binary64
  | nan
  | infinite (negative : Bool)
  | finite (negative : Bool) (mantissa : Nat) (exponent : Int)
  deriving DecidableEq

/-- The smallest exponent of a finite double. -/
def leastExponent : Int := -1074

/-- The bit above the fraction, which a normal double has without writing it. -/
def hiddenBit : Nat := Nat.pow 2 52

/-- The bits of the exponent of infinities and of values that are no numbers. -/
def topExponent : Nat := 2047

def signBit (negative : Bool) : Nat := if negative then Nat.pow 2 63 else 0

def infinity (negative : Bool) : Float :=
  Float.ofBits (UInt64.ofNat (signBit negative + topExponent * hiddenBit))

def Binary64.ofFloat (x : Float) : Binary64 :=
  let bits := x.toBits.toNat
  let negative := bits / signBit true == 1
  let biased : Nat := bits / hiddenBit % (topExponent + 1)
  let fraction : Nat := bits % hiddenBit
  if biased = topExponent then
    if fraction = 0 then .infinite negative else .nan
  else if biased = 0 then .finite negative fraction leastExponent
  else .finite negative (hiddenBit + fraction) ((biased : Int) - 1075)

/-- The whole number nearest to a quotient, a tie going to the even one. -/
def roundDiv (num den : Nat) : Nat :=
  let q := num / den
  let r := num % den
  if 2 * r < den then q
  else if den < 2 * r then q + 1
  else q + q % 2

/-- The power of a base with a whole exponent as a quotient: numerator and denominator. -/
def powRatio (base : Nat) (e : Int) : Nat × Nat :=
  (Nat.pow base e.toNat, Nat.pow base (-e).toNat)

/-- Whether a quotient has fewer than 53 bits at an exponent. -/
def isShort (num den : Nat) (e : Int) : Bool :=
  let (p, q) := powRatio 2 e
  num * q < hiddenBit * (den * p)

/-- The exponent at which a quotient has 53 bits. -/
def fullExponent (num den : Nat) : Int :=
  let wide : Int := (num.log2 : Int) - den.log2 - 52
  if isShort num den wide then wide - 1 else wide

/-- The exponent of the double nearest to a quotient, whose rounding may still add to it. -/
def nearestExponent (num den : Nat) : Int := max leastExponent (fullExponent num den)

/-- The mantissa of a quotient at an exponent, rounded. -/
def nearestMantissa (num den : Nat) (e : Int) : Nat :=
  let (p, q) := powRatio 2 e
  roundDiv (num * q) (den * p)

/-- The bits of a magnitude. A mantissa of 54 bits has the next exponent,
and far out is infinity. -/
def magnitudeBits (mantissa : Nat) (e : Int) : Nat :=
  if mantissa < hiddenBit then mantissa
  else min ((e - leastExponent + 1).toNat * hiddenBit + (mantissa - hiddenBit))
  (topExponent * hiddenBit)

/-- The bits of the double nearest to a quotient, without the sign. -/
def nearestBits (num den : Nat) : Nat :=
  if num = 0 then 0
  else
    let e := nearestExponent num den
    magnitudeBits (nearestMantissa num den e) e

/-- The double nearest to a quotient with a positive denominator. -/
def nearest (negative : Bool) (num den : Nat) : Float :=
  Float.ofBits (UInt64.ofNat (signBit negative + nearestBits num den))

/-- The double nearest to `digits * 10 ^ exponent`. Far out of range the answer is an infinity or a
zero, without computing the power. -/
def nearestDecimal (negative : Bool) (digits : Nat) (exponent : Int) : Float :=
  let magnitude : Int := exponent + (Nat.toDigits 10 digits).length
  if digits = 0 ∨ magnitude < -400 then nearest negative 0 1
  else if 400 < magnitude then infinity negative
  else
    let (p, q) := powRatio 10 exponent
    nearest negative (digits * p) q

end UiMarkup.Number
