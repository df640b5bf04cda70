import UiMarkup.Number.Literal

/-!
Remainders of doubles by a positive whole number, computed exactly, and rounding to a whole number.
-/

namespace UiMarkup.Number

/-- The remainder with the sign of the modulus: from zero up to it. A zero is
positive. The remainder of a magnitude is a double, so only what a negative one leaves
up to the modulus is rounded. -/
def floorMod (x : Float) (modulus : Nat) : Float :=
  match Binary64.ofFloat x with
  | .finite negative m e =>
    let (p, q) := powRatio 2 e
    let rest := m * p % (modulus * q)
    nearest false (if negative && rest != 0 then modulus * q - rest else rest) q
  | _ => notANumber

/-- The whole number nearest to a finite double, a tie going to the even one. -/
def roundWhole? (x : Float) : Option Int :=
  match Binary64.ofFloat x with
  | .finite negative m e =>
    let (p, q) := powRatio 2 e
    some (signed negative (roundDiv (m * p) q))
  | _ => none

end UiMarkup.Number
