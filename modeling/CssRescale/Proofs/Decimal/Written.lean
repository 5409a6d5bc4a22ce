import CssRescale.Decimal.Plain
import CssRescale.Proofs.Binary64.Equality
import CssRescale.Proofs.Decimal.Digits
import CssRescale.Proofs.Decimal.Numeral
import CssRescale.Proofs.Decimal.Shortest

/-!
Contract: the text of a number reads as the number.

Owns:
- the numeral that a decimal number is written as, and its value;
- the numeral that a double-precision number is written as in style sheets: its
  value is the number, except that zero loses its sign and an infinity becomes
  the largest finite number.
-/

set_option autoImplicit false

namespace CssRescale

namespace Decimal

open Text (digitsValue)

/-! ## Decimal numbers -/

/-- The numeral that a decimal number is written as, after a sign. -/
def numeral (negative : Bool) (number : Decimal) : Numeral where
  sign := Binary64.signText negative
  whole := naturalDigits
    (number.digits * 10 ^ number.exponent.toNat / 10 ^ (-number.exponent).toNat)
  fraction := fixedDigits (-number.exponent).toNat number.digits
  exponent? := none
  sign_valid := by
    cases negative
    · exact Or.inl rfl
    · exact Or.inr (Or.inr rfl)
  whole_valid := isDigits_naturalDigits _
  fraction_valid := isDigits_fixedDigits _ _
  digits_ne_nil := Or.inl (naturalDigits_ne_nil _)

theorem text_numeral (negative : Bool) (number : Decimal) :
    (number.numeral negative).text = Binary64.signText negative ++ number.plain := by
  by_cases places : (-number.exponent).toNat = 0
  · simp [Numeral.text, Numeral.pointText, Numeral.exponentText, numeral, plain, places, fixedDigits]
  · have fraction : fixedDigits (-number.exponent).toNat number.digits ≠ [] := by
      intro none
      have length := congrArg List.length none
      rw [length_fixedDigits, List.length_nil] at length
      exact places length
    simp [Numeral.text, Numeral.pointText, Numeral.exponentText, numeral, plain, places, fraction]

theorem signText_beq (negative : Bool) : (Binary64.signText negative == ['-']) = negative := by
  cases negative <;> rfl

/-- The digits of the numeral of a number with a fraction are those of the number. -/
theorem decimal_numeral_of_neg
    {number : Decimal}
    (negative : Bool)
    (fractional : number.exponent < 0) :
    (number.numeral negative).decimal = number := by
  have whole : number.exponent.toNat = 0 := by omega
  have places : -((-number.exponent).toNat : Int) = number.exponent := by omega
  have digits : digitsValue ((number.numeral negative).whole ++ (number.numeral negative).fraction) =
      number.digits := by
    simp only [numeral, whole, Nat.pow_zero, Nat.mul_one, digitsValue_append,
      digitsValue_naturalDigits, digitsValue_fixedDigits, length_fixedDigits]
    exact Nat.div_add_mod' _ _
  have exponent : (number.numeral negative).exponentValue -
      ((number.numeral negative).fraction.length : Int) = number.exponent := by
    simp only [numeral, Numeral.exponentValue, length_fixedDigits]
    omega
  rw [Numeral.decimal, digits, exponent]

/-- The digits of the numeral of a whole number have its zeros among them. -/
theorem decimal_numeral_of_nonneg
    {number : Decimal}
    (negative : Bool)
    (whole : 0 ≤ number.exponent) :
    (number.numeral negative).decimal = ⟨number.digits * 10 ^ number.exponent.toNat, 0⟩ := by
  have places : (-number.exponent).toNat = 0 := by omega
  simp only [Numeral.decimal, numeral, Numeral.exponentValue, places, fixedDigits, Nat.pow_zero,
    Nat.div_one, List.append_nil, digitsValue_naturalDigits, List.length_nil]
  rfl

/-- Zeros may be counted in the digits or in the power of ten. -/
theorem toBinary64_zeros
    {number : Decimal}
    (negative : Bool)
    (whole : 0 ≤ number.exponent) :
    toBinary64 negative ⟨number.digits * 10 ^ number.exponent.toNat, 0⟩ =
      toBinary64 negative number := by
  have places : (-number.exponent).toNat = 0 := by omega
  rw [toBinary64_eq, toBinary64_eq, places]
  simp

/-- A decimal number is read back from its numeral. -/
theorem value_numeral (negative : Bool) (number : Decimal) :
    (number.numeral negative).value = number.toBinary64 negative := by
  unfold Numeral.value
  show toBinary64 (Binary64.signText negative == ['-']) _ = _
  rw [signText_beq]
  rcases Int.lt_or_le number.exponent 0 with fractional | whole
  · rw [decimal_numeral_of_neg negative fractional]
  · rw [decimal_numeral_of_nonneg negative whole]
    exact toBinary64_zeros negative whole

/-- The sign of a decimal number is the sign of the number nearest to it. -/
theorem toBinary64_of_readsBack
    {size : Binary64.Magnitude}
    {number : Decimal}
    (negative : Bool)
    (reads : readsBack size number = true) :
    number.toBinary64 negative = .finite negative size := by
  rw [toBinary64_eq]
  exact Binary64.ofUnits_eq_finite negative (readsBack_iff.mp reads)

end Decimal

namespace Binary64

/-! ## Double-precision numbers -/

/-- The numeral that a number is written as in style sheets. -/
def numeral : Binary64 → Numeral
  | nan => Decimal.numeral false ⟨0, 0⟩
  | infinite negative => (Decimal.shortest Magnitude.largest).numeral negative
  | finite negative size =>
      if size.units = 0 then Decimal.numeral false ⟨0, 0⟩
      else (Decimal.shortest size).numeral negative

theorem text_numeral_zero : (Decimal.numeral false ⟨0, 0⟩).text = ['0'] := by
  decide +kernel

theorem cssText_eq (value : Binary64) : value.cssText = value.numeral.text := by
  cases value with
  | nan => exact text_numeral_zero.symm
  | infinite negative => exact (Decimal.text_numeral negative _).symm
  | finite negative size =>
      simp only [cssText, numeral]
      split
      · exact text_numeral_zero.symm
      · exact (Decimal.text_numeral negative _).symm

theorem exponent?_numeral (value : Binary64) : value.numeral.exponent? = none := by
  unfold numeral
  split
  · rfl
  · rfl
  · split <;> rfl

theorem value_numeral_shortest (negative : Bool) (size : Magnitude) :
    ((Decimal.shortest size).numeral negative).value = finite negative size := by
  rw [Decimal.value_numeral]
  exact Decimal.toBinary64_of_readsBack negative (Decimal.readsBack_shortest size)

/-- A number other than zero is read back from its text, an infinity as the
largest finite number. -/
theorem value_numeral
    {value : Binary64}
    (number : value.isNan = false)
    (nonzero : value.isZero = false) :
    value.numeral.value = value.saturate := by
  cases value with
  | nan => cases number
  | infinite negative => exact value_numeral_shortest negative Magnitude.largest
  | finite negative size =>
      have units : size.units ≠ 0 := by simpa [isZero] using nonzero
      simp only [numeral, if_neg units]
      exact value_numeral_shortest negative size

theorem value_numeral_of_isZero
    {value : Binary64}
    (isZero : value.isZero = true) :
    value.numeral.value = zero false := by
  cases value with
  | nan => cases isZero
  | infinite => cases isZero
  | finite negative size =>
      have units : size.units = 0 := by simpa [Binary64.isZero] using isZero
      simp only [numeral, if_pos units]
      decide +kernel

/-- What is read back from the text of a number equals it, where infinities are the
largest finite numbers. -/
theorem equal_value_numeral {value : Binary64} (number : value.isNan = false) :
    equal value.numeral.value.saturate value.saturate = true := by
  cases zero : value.isZero with
  | true =>
      rw [value_numeral_of_isZero zero]
      cases value with
      | nan => cases zero
      | infinite => cases zero
      | finite negative size =>
          have none : size.units = 0 := by simpa [isZero] using zero
          cases negative <;> simp [equal, saturate, isNan, Binary64.zero, rank, signed, none,
            Magnitude.zero]
  | false =>
      rw [value_numeral number zero, saturate_saturate]
      exact equal_self (by rw [isNan_saturate, number])

end Binary64

end CssRescale
