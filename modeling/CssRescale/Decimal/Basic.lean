import CssRescale.Binary64.Basic
import CssRescale.Text.Basic

/-!
Contract: decimal numbers, and the double-precision number nearest to each.

Owns:
- the type `Decimal` of digits with a power of ten;
- correctly rounded conversion to `Binary64`;
- decimal digits of natural numbers, in a fixed width or as few as needed.
-/

set_option autoImplicit false

namespace CssRescale

/-- The number `digits * 10 ^ exponent`. -/
structure Decimal where
  digits : Nat
  exponent : Int
deriving DecidableEq, Repr

namespace Decimal

/-- Above this power of ten every number other than zero is beyond the finite ones. -/
def exponentCeiling : Int := 400

/-- The double-precision number nearest to a decimal one.

Exponents far outside the range are answered without computing the power: with
`digits < 2 ^ (log2 digits + 1)`, the number is above `10 ^ 400` in the first
case and below `10 ^ (-400)` in the second. -/
def toBinary64 (negative : Bool) (number : Decimal) : Binary64 :=
  if number.digits = 0 then Binary64.zero negative
  else if exponentCeiling < number.exponent then Binary64.infinite negative
  else if number.exponent + number.digits.log2 + 1 < -exponentCeiling then Binary64.zero negative
  else
    Binary64.ofUnits negative
      (number.digits * 10 ^ number.exponent.toNat * Binary64.unitsPerOne)
      (10 ^ (-number.exponent).toNat)

def digitChar (digit : Nat) : Char := Char.ofNat ('0'.toNat + digit)

/-- The last `width` decimal digits of a number, with leading zeros. -/
def fixedDigits : Nat → Nat → Text
  | 0, _ => []
  | width + 1, value => fixedDigits width (value / 10) ++ [digitChar (value % 10)]

/-- The number of decimal digits of a number, none for zero. -/
def digitCount (value : Nat) : Nat :=
  if value = 0 then 0 else digitCount (value / 10) + 1
termination_by value
decreasing_by omega

/-- The decimal digits of a number, without leading zeros; zero is one digit. -/
def naturalDigits (value : Nat) : Text := fixedDigits (max 1 (digitCount value)) value

end Decimal

end CssRescale
