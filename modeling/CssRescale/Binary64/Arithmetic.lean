import CssRescale.Binary64.Basic

/-!
Contract: the operations of double-precision arithmetic that conversion needs.

Owns:
- product, quotient, negation, absolute value and saturation;
- rounding to a whole number, halves away from zero;
- powers of ten by repeated squaring;
- the comparisons, in which NaN takes no part and both zeros are one number.

Each operation is exact arithmetic on least units followed by one rounding.
-/

set_option autoImplicit false

namespace CssRescale.Binary64

def mul : Binary64 → Binary64 → Binary64
  | nan, _ => nan
  | _, nan => nan
  | infinite left, infinite right => infinite (left != right)
  | infinite left, finite right size => if size.units = 0 then nan else infinite (left != right)
  | finite left size, infinite right => if size.units = 0 then nan else infinite (left != right)
  | finite left leftSize, finite right rightSize =>
      ofUnits (left != right) (leftSize.units * rightSize.units) unitsPerOne

def div : Binary64 → Binary64 → Binary64
  | nan, _ => nan
  | _, nan => nan
  | infinite _, infinite _ => nan
  | infinite left, finite right _ => infinite (left != right)
  | finite left _, infinite right => zero (left != right)
  | finite left leftSize, finite right rightSize =>
      if rightSize.units = 0 then
        if leftSize.units = 0 then nan else infinite (left != right)
      else
        ofUnits (left != right) (leftSize.units * unitsPerOne) rightSize.units

def neg : Binary64 → Binary64
  | nan => nan
  | infinite negative => infinite (!negative)
  | finite negative size => finite (!negative) size

def abs : Binary64 → Binary64
  | nan => nan
  | infinite _ => infinite false
  | finite _ size => finite false size

/-- An infinity becomes the largest finite number of its sign. -/
def saturate : Binary64 → Binary64
  | infinite negative => finite negative Magnitude.largest
  | other => other

/-- The nearest whole number; halfway cases go away from zero. -/
def round : Binary64 → Binary64
  | finite negative size =>
      ofUnits negative ((size.units + unitsPerOne / 2) / unitsPerOne * unitsPerOne) 1
  | other => other

def one : Binary64 := ofNat 1

/-- Multiplies `result` by the given power of `base`, squaring `base` from step to step. -/
def mulPower (result base : Binary64) (exponent : Nat) : Binary64 :=
  let result := if exponent % 2 = 1 then result.mul base else result
  if exponent / 2 = 0 then result else mulPower result (base.mul base) (exponent / 2)
termination_by exponent
decreasing_by omega

/-- The largest exponent that a power is computed for. -/
def largestExponent : Nat := 2147483647

/-- Ten to the given power, by repeated squaring: every step rounds, so beyond
`10 ^ 22` the result need not be the nearest number. -/
def tenPower (exponent : Nat) : Binary64 :=
  mulPower one (ofNat 10) (min exponent largestExponent)

/-- Puts a sign before a natural number. -/
def signed (negative : Bool) (size : Nat) : Int :=
  if negative then -(size : Int) else (size : Int)

/-- The place of a number in the order of all numbers, in least units. -/
def rank : Binary64 → Int
  | nan => 0
  | infinite negative => signed negative overflowUnits
  | finite negative size => signed negative size.units

/-- Are these the same number? NaN is none, and both zeros are one. -/
def equal (left right : Binary64) : Bool :=
  !left.isNan && !right.isNan && left.rank == right.rank

/-- Is the left number at most the right one? -/
def atMost (left right : Binary64) : Bool :=
  !left.isNan && !right.isNan && left.rank ≤ right.rank

/-- Is the left number below the right one? -/
def below (left right : Binary64) : Bool :=
  !left.isNan && !right.isNan && left.rank < right.rank

end CssRescale.Binary64
