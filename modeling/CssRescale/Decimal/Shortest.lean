import CssRescale.Decimal.Basic

/-!
Contract: the shortest decimal number that reads back as a given finite number.

On the grid of multiples of a power of ten a number has two neighbours. Grids
are tried from coarse to fine; the first one with a neighbour that reads back
gives the answer. If both neighbours do, the nearer one is taken, and the upper
one if they are equally near.

The coarsest grid tried is the first power of ten beyond the number, the finest
one holds every finite number, so the search ends with an answer.
-/

set_option autoImplicit false

namespace CssRescale.Decimal

/-- The multiples of this power of ten include every finite number. -/
def finestExponent : Nat := 1074

/-- Does the decimal number round to this magnitude? -/
def readsBack (size : Binary64.Magnitude) (number : Decimal) : Bool :=
  number.toBinary64 false == Binary64.finite false size

/-- The greatest multiple of `10 ^ exponent` that is at most the number. -/
def lowerNeighbour (size : Binary64.Magnitude) (exponent : Int) : Decimal :=
  ⟨size.units * 10 ^ (-exponent).toNat / (Binary64.unitsPerOne * 10 ^ exponent.toNat), exponent⟩

/-- Is the number nearer to its lower neighbour than to the next multiple? -/
def nearerBelow (size : Binary64.Magnitude) (lower : Decimal) : Bool :=
  2 * (size.units * 10 ^ (-lower.exponent).toNat)
    < (2 * lower.digits + 1) * (Binary64.unitsPerOne * 10 ^ lower.exponent.toNat)

/-- The multiple of `10 ^ exponent` that stands for the number, if one reads back. -/
def onGrid? (size : Binary64.Magnitude) (exponent : Int) : Option Decimal :=
  let lower := lowerNeighbour size exponent
  let upper : Decimal := ⟨lower.digits + 1, exponent⟩
  match readsBack size lower, readsBack size upper with
  | true, true => some (if nearerBelow size lower then lower else upper)
  | true, false => some lower
  | false, true => some upper
  | false, false => none

/-- The number of digits before the decimal point. -/
def wholeDigitCount (size : Binary64.Magnitude) : Nat :=
  digitCount (size.units / Binary64.unitsPerOne)

/-- The powers of ten from the given one down to the finest one. -/
def exponentsFrom (coarsest : Nat) : List Int :=
  (List.range (coarsest + finestExponent + 1)).map fun (step : Nat) => (coarsest : Int) - step

/-- The shortest decimal number that reads back as the magnitude. -/
def shortest (size : Binary64.Magnitude) : Decimal :=
  ((exponentsFrom (wholeDigitCount size)).findSome? (onGrid? size)).getD
    (lowerNeighbour size (-(finestExponent : Int)))

end CssRescale.Decimal
