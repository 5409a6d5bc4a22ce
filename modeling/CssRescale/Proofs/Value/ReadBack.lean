import CssRescale.Binary64.Bits
import CssRescale.Proofs.Decimal.Layout
import CssRescale.Proofs.Value.Measured

/-!
Contract: a number that is written is read back.

A written number is a numeral without an exponent, so nothing of a unit behind it that
starts no exponent goes on the number, and the unit is taken whole.

Owns: the one token that a written number is with a unit behind it, and the measurement
that is read from this token.
-/

set_option autoImplicit false

namespace CssRescale

open Text (byteLength)
open Token (IsPlainUnit)

namespace Token

/-- A numeral with no unit, a percent sign or a plain identifier behind it is one token. -/
theorem scan_numeral
    (numeral : Numeral)
    {unit : Text}
    (isUnit : unit = [] ∨ unit = ['%'] ∨ IsPlainUnit unit) :
    scan (numeral.text ++ unit) = [number numeral.text unit] := by
  have ends : numeral.EndsBefore unit := by
    rcases isUnit with rfl | rfl | plain
    · exact numeral.endsBefore_nil
    · exact ⟨rfl, fun _ => rfl, fun _ _ => rfl⟩
    · have exponent := plain.exponent
      obtain ⟨first, tail, rfl, starter⟩ := plain.exists_first
      exact endsBefore_unit starter fun _ => exponent
  have taken : takeUnit unit = (unit, []) := by
    rcases isUnit with rfl | rfl | plain
    · rfl
    · rfl
    · have taken : takeUnit (unit ++ []) = (unit, []) := plain.takeUnit rfl
      rwa [List.append_nil] at taken
  rw [scan, scanFrom_of_next? (next?_numeral (by decide) ends), taken, scanFrom_nil]

end Token

namespace Binary64

/-- What is read back from a written number: the number itself, except that NaN and both
zeros are zero and an infinity is the largest finite number of its sign. -/
theorem value_numeral_eq (value : Binary64) :
    value.numeral.value =
      if value.isNan || value.isZero then zero false else value.saturate := by
  split
  next none =>
    rw [Bool.or_eq_true] at none
    rcases none with isNan | isZero
    · cases value with
      | nan => decide +kernel
      | _ => cases isNan
    · exact value_numeral_of_isZero isZero
  next some =>
    rw [Bool.not_eq_true, Bool.or_eq_false_iff] at some
    exact value_numeral some.1 some.2

/-- No number is written as zero with a minus sign, which would be read back as such. -/
theorem cssText_ne_minus_zero (value : Binary64) : value.cssText ≠ ['-', '0'] := by
  intro written
  have read := value.numeral.read?_text
  have minusZero : Decimal.read? ['-', '0'] = some (zero true) := by decide +kernel
  rw [← cssText_eq, written, minusZero, value_numeral_eq, Option.some.injEq] at read
  split at read
  · cases read
  next some =>
    apply some
    cases value with
    | nan => rfl
    | infinite negative =>
        have size : Magnitude.zero = Magnitude.largest := by
          rw [saturate, zero, finite.injEq] at read
          exact read.2
        exact absurd size (by decide +kernel)
    | finite negative size =>
        have same : zero true = finite negative size := read
        rw [← same]
        rfl

/-- A number is read back as it was written.

It is written without superfluous zeros, sign or point. With nothing, a percent sign or a
plain identifier behind it, it is one number token, whose unit starts where the number
ends, and the measurement of this token has the unit and the number; only NaN and the
zeros are read as zero, and the infinities as the largest finite numbers. -/
theorem readSplit?_cssText
    (value : Binary64)
    {unit : Text}
    (isUnit : unit = [] ∨ unit = ['%'] ∨ IsPlainUnit unit) :
    Text.IsPlainNumber value.cssText ∧
      value.cssText ≠ ['-', '0'] ∧
      Token.scan (value.cssText ++ unit) = [.number value.cssText unit] ∧
      ∃ measurement,
        Measurement.readSplit? (value.cssText ++ unit) (byteLength value.cssText) =
            some measurement ∧
          measurement.unit = (if unit = [] then none else some unit) ∧
          measurement.value =
            (if value.isNan || value.isZero then zero false else value.saturate) := by
  refine ⟨value.isPlainNumber_cssText, value.cssText_ne_minus_zero, ?token,
    .ofNumeral value.numeral unit, ?read, ?unit, value.value_numeral_eq⟩
  case token =>
    rw [cssText_eq]
    exact Token.scan_numeral value.numeral isUnit
  case read => rw [Measurement.readSplit?_append, cssText_eq, Measurement.read?_numeral]
  case unit =>
    show Measurement.unitOf unit = _
    simp only [Measurement.unitOf, List.isEmpty_iff]

/-- The smallest number, and a unit that starts like an exponent. -/
theorem readSplit?_cssText_smallest :
    IsPlainUnit "e-x".toList ∧
      Token.scan ((ofBits 1).cssText ++ "e-x".toList) =
        [.number (ofBits 1).cssText "e-x".toList] ∧
      ∃ measurement,
        Measurement.readSplit? ((ofBits 1).cssText ++ "e-x".toList) (byteLength (ofBits 1).cssText) =
            some measurement ∧
          measurement.unit = some "e-x".toList ∧ measurement.value = ofBits 1 := by
  have plain : IsPlainUnit "e-x".toList := ⟨rfl, List.all_eq_true.mp rfl, rfl⟩
  obtain ⟨-, -, token, measurement, read, unit, value⟩ :=
    readSplit?_cssText (ofBits 1) (Or.inr (Or.inr plain))
  refine ⟨plain, token, measurement, read, unit, ?_⟩
  rw [value]
  decide +kernel

end Binary64

end CssRescale
