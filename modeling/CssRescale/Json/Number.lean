import CssRescale.Binary64.Arithmetic
import CssRescale.Decimal.Basic

/-!
Contract: the numbers of JSON text.

A number is read as the digits that fit 64 bits, and the power of ten that the
digits are to be scaled by; further digits of the fraction are dropped. The
value is the digits as a double-precision number, multiplied or divided by that
power, each step rounded. A number whose value would not be finite is refused.

Owns: the grammar of numbers, their value, and the integers among them.
-/

set_option autoImplicit false

namespace CssRescale.Json

/-- A number as written. -/
structure Numeral where
  negative : Bool
  whole : Text
  fraction : Option Text
  exponent : Option Int
deriving DecidableEq, Repr

/-- The fraction after a whole part: a point needs at least one digit. -/
def readFraction? : Text → Option (Option Text × Text)
  | '.' :: rest =>
      let (digits, left) := Text.takeDigits rest
      if digits.isEmpty then none else some (some digits, left)
  | text => some (none, text)

/-- The exponent at the end of a number: a mark needs at least one digit. -/
def readExponent? : Text → Option (Option Int × Text)
  | [] => some (none, [])
  | mark :: rest =>
      if isExponentMark mark then
        let (sign, afterSign) := Text.takeSign rest
        let (digits, left) := Text.takeDigits afterSign
        if digits.isEmpty then none
        else some (some (Binary64.signed (sign == ['-']) (Text.digitsValue digits)), left)
      else
        some (none, mark :: rest)

/-- The whole part of a number: zero, or digits that do not start with zero. -/
def readWhole? (text : Text) : Option (Text × Text) :=
  let (digits, left) := Text.takeDigits text
  match digits with
  | [] => none
  | '0' :: _ :: _ => none
  | _ => some (digits, left)

/-- Reads a number as it is written. -/
def readNumeral? (text : Text) : Option (Numeral × Text) := do
  let (negative, unsigned) :=
    match text with
    | '-' :: rest => (true, rest)
    | _ => (false, text)
  let (whole, afterWhole) ← readWhole? unsigned
  let (fraction, afterFraction) ← readFraction? afterWhole
  let (exponent, left) ← readExponent? afterFraction
  return (⟨negative, whole, fraction, exponent⟩, left)

def largestWord : Nat := 2 ^ 64 - 1

/-- Appends digits to a number as long as it fits 64 bits; the second part
counts the digits appended. -/
def absorb (significand : Nat) : Text → Nat × Nat
  | [] => (significand, 0)
  | digit :: rest =>
      let longer := significand * 10 + Text.digitsValue [digit]
      if longer ≤ largestWord then
        let (final, count) := absorb longer rest
        (final, count + 1)
      else
        (significand, 0)

/-- The largest power of ten that is finite. -/
def largestPower : Nat := 308

/-- The double-precision number nearest to a power of ten. -/
def power (exponent : Nat) : Binary64 := Decimal.toBinary64 false ⟨1, exponent⟩

/-- A number times a power of ten; none if that is not finite. -/
def scale? (value : Binary64) (exponent : Int) : Option Binary64 :=
  if exponent.natAbs ≤ largestPower then
    if 0 ≤ exponent then
      let product := value.mul (power exponent.natAbs)
      if product.isFinite then some product else none
    else
      some (value.div (power exponent.natAbs))
  else if value.isZero then some value
  else if 0 ≤ exponent then none
  else scale? (value.div (power largestPower)) (exponent + largestPower)
termination_by exponent.natAbs
decreasing_by
  unfold largestPower at *
  omega

namespace Numeral

/-- The value of a number; none if it is not finite. -/
def value? (numeral : Numeral) : Option Binary64 :=
  let (leading, wholeCount) := absorb 0 numeral.whole
  let (significand, fractionCount) := absorb leading (numeral.fraction.getD [])
  let dropped : Int := (numeral.whole.length : Int) - wholeCount
  let exponent : Int := dropped - fractionCount + numeral.exponent.getD 0
  (scale? (Binary64.ofNat significand) exponent).map fun size =>
    if numeral.negative then size.neg else size

/-- The integer a number is: it is written without fraction and exponent, is no
negative zero, and fits 64 bits with its sign. -/
def integer? (numeral : Numeral) : Option Int :=
  let size := Text.digitsValue numeral.whole
  if numeral.fraction.isSome || numeral.exponent.isSome then none
  else if numeral.negative then
    if 0 < size ∧ size ≤ 2 ^ 63 then some (-(size : Int)) else none
  else
    if size < 2 ^ 63 then some size else none

end Numeral

def readNumber? (text : Text) : Option (Numeral × Binary64 × Text) := do
  let (numeral, left) ← readNumeral? text
  let value ← numeral.value?
  return (numeral, value, left)

end CssRescale.Json
