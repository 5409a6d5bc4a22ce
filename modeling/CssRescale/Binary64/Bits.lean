import CssRescale.Binary64.Basic

/-!
Contract: the interchange form of double-precision numbers, a word of 64 bits.

Owns: reading a word as a number and writing a number as its word. Every NaN
is one value here, so only numbers other than NaN keep their word.

The word is a natural number: its highest bit is the sign, the next eleven
are the exponent field, the last 52 the fraction.
-/

set_option autoImplicit false

namespace CssRescale.Binary64

/-- The exponent field of the infinities and NaN. -/
def specialField : Nat := 2047

def ofBits (word : Nat) : Binary64 :=
  let negative := word / 2 ^ 63 % 2 == 1
  let field := word / 2 ^ 52 % 2 ^ 11
  let fraction := word % 2 ^ 52
  if field = specialField then
    if fraction = 0 then infinite negative else nan
  else if field = 0 then
    ofUnits negative fraction 1
  else
    ofUnits negative ((2 ^ 52 + fraction) * 2 ^ (field - 1)) 1

/-- The exponent field and fraction of a representable count, as one number. -/
def magnitudeBits (units : Nat) : Nat :=
  if units < 2 ^ 52 then units
  else (units.log2 - 52) * 2 ^ 52 + units / spacing units

/-- The word of a number; NaN has many and gets the quiet one. -/
def toBits : Binary64 → Nat
  | nan => specialField * 2 ^ 52 + 2 ^ 51
  | infinite negative => (if negative then 2 ^ 63 else 0) + specialField * 2 ^ 52
  | finite negative size => (if negative then 2 ^ 63 else 0) + magnitudeBits size.units

end CssRescale.Binary64
