import CssRescale.Binary64.Arithmetic
import CssRescale.Decimal.Shortest

/-!
Contract: the written form of numbers.

Numbers are written positionally, without an exponent, with the fewest digits
that read back, and with a decimal point only before a fraction.

Owns:
- `Decimal.plain`, the positional layout;
- `Binary64.display`, the form numbers have in messages;
- `Binary64.cssText`, the form numbers have in style sheets, where the sign of
  zero is dropped and every value is finite.
-/

set_option autoImplicit false

namespace CssRescale

/-- The digits of a decimal number in their places. -/
def Decimal.plain (number : Decimal) : Text :=
  let places := (-number.exponent).toNat
  let whole := number.digits * 10 ^ number.exponent.toNat / 10 ^ places
  Decimal.naturalDigits whole
    ++ (if places = 0 then [] else '.' :: Decimal.fixedDigits places number.digits)

namespace Binary64

/-- The sign a number is written with. -/
def signText (negative : Bool) : Text := if negative then ['-'] else []

/-- The written form of a finite number. -/
def finiteText (negative : Bool) (size : Magnitude) : Text :=
  signText negative ++ (Decimal.shortest size).plain

/-- A number as messages show it: zero keeps its sign, and the values that are
not finite have names. -/
def display : Binary64 → Text
  | nan => ['N', 'a', 'N']
  | infinite negative => signText negative ++ ['i', 'n', 'f']
  | finite negative size => finiteText negative size

/-- A number as style sheets show it: zero has no sign, NaN is written as zero
and an infinity as the largest finite number. -/
def cssText : Binary64 → Text
  | nan => ['0']
  | infinite negative => finiteText negative Magnitude.largest
  | finite negative size => if size.units = 0 then ['0'] else finiteText negative size

end Binary64

end CssRescale
