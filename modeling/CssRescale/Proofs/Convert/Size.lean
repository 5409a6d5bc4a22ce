import CssRescale.Proofs.Convert.Precision
import CssRescale.Proofs.Convert.TokenWise
import CssRescale.Proofs.Decimal.Written

/-!
Contract: the sizes that conversion gives are numbers, with the sign they had.

Owns:
- a converted size as a magnitude with the sign of the measurement;
- a converted measurement is a number, and is written with a digit in front or
  with the minus sign that its source has.
-/

set_option autoImplicit false

namespace CssRescale

open Binary64 (Magnitude)
open Text (headIs startsWithDigit)

/-! ## How numbers start -/

theorem Decimal.startsWithDigit_numeral (number : Decimal) :
    startsWithDigit (number.numeral false).text = true := by
  have whole := Text.startsWithDigit_append (number.numeral false).whole_valid
    (Decimal.naturalDigits_ne_nil _)
  exact whole _

/-- A number is written with a digit in front, or with a minus sign if it has one. -/
theorem Binary64.numeral_start (value : Binary64) :
    startsWithDigit value.numeral.text = true ∨
      headIs (· == '-') value.numeral.text = true ∧ value.isMinus = true ∧ value.isZero = false := by
  cases value with
  | nan => exact Or.inl (Decimal.startsWithDigit_numeral _)
  | infinite negative =>
      cases negative with
      | false => exact Or.inl (Decimal.startsWithDigit_numeral _)
      | true => exact Or.inr ⟨rfl, rfl, rfl⟩
  | finite negative size =>
      simp only [numeral]
      split
      next => exact Or.inl (Decimal.startsWithDigit_numeral _)
      next nonzero =>
        cases negative with
        | false => exact Or.inl (Decimal.startsWithDigit_numeral _)
        | true => exact Or.inr ⟨rfl, rfl, by simp [isZero, nonzero]⟩

theorem Numeral.headIs_minus
    {numeral : Numeral}
    (minus : numeral.value.isMinus = true) :
    headIs (· == '-') numeral.text = true := by
  have sign : (numeral.sign == ['-']) = true := by
    cases same : numeral.sign == ['-'] with
    | true => rfl
    | false =>
        rw [Numeral.value, same, Decimal.toBinary64_eq, Binary64.isMinus_ofUnits] at minus
        cases minus
  rw [Numeral.text, eq_of_beq sign]
  rfl

/-! ## Sizes -/

theorem Binary64.IsPositive.eq_finite
    {value : Binary64}
    (positive : value.IsPositive) :
    ∃ size : Magnitude, value = finite false size ∧ size.units ≠ 0 := by
  obtain ⟨isFinite, above⟩ := positive
  simp only [below, rank_zero, Bool.and_eq_true, decide_eq_true_eq] at above
  cases value with
  | nan => cases isFinite
  | infinite => cases isFinite
  | finite negative size =>
      cases negative with
      | false =>
          refine ⟨size, rfl, fun zero => ?_⟩
          rw [rank_finite_plus] at above
          omega
      | true =>
          rw [rank_finite_minus] at above
          omega

namespace Binary64

/-- The magnitude of a number, the largest one for an infinity. -/
def magnitude : Binary64 → Magnitude
  | nan => Magnitude.zero
  | infinite _ => Magnitude.largest
  | finite _ size => size

/-- The magnitude of a quotient, the largest one where that is infinite. -/
def Magnitude.quotient (base : Magnitude) : Binary64 → Magnitude
  | finite _ size => nearest (size.units * unitsPerOne) base.units
  | _ => largest

theorem Magnitude.units_quotient_of_isZero
    {value : Binary64}
    (base : Magnitude)
    (isZero : value.isZero = true) :
    (base.quotient value).units = 0 := by
  cases value with
  | nan => cases isZero
  | infinite => cases isZero
  | finite negative size =>
      have none : size.units = 0 := by simpa [Binary64.isZero] using isZero
      show (nearest (size.units * unitsPerOne) base.units).units = 0
      rw [none, Nat.zero_mul, units_nearest_zero]

theorem saturate_div_plus
    {base : Magnitude}
    {value : Binary64}
    (nonzero : base.units ≠ 0)
    (number : value.isNan = false) :
    (value.div (finite false base)).saturate = finite value.isMinus (base.quotient value) := by
  cases value with
  | nan => cases number
  | infinite negative => cases negative <;> rfl
  | finite negative size =>
      rw [div_plus negative size nonzero, saturate_ofUnits]
      rfl

end Binary64

namespace Rules

variable (rules : Rules)

theorem baseSize_eq :
    rules.baseSize = .finite false rules.baseSize.magnitude ∧
      rules.baseSize.magnitude.units ≠ 0 := by
  obtain ⟨base, baseSize, nonzero⟩ := rules.baseSize_positive.eq_finite
  rw [baseSize]
  exact ⟨rfl, nonzero⟩

/-- The magnitude of a converted size: the saturated quotient by the base size, rounded. -/
def convertedSize (value : Binary64) : Magnitude :=
  (rules.baseSize.magnitude.quotient value).toPrecision rules.precision

/-- A converted size has the sign of the measurement. -/
theorem convertSize_eq {value : Binary64} (number : value.isNan = false) :
    rules.convertSize value = .finite value.isMinus (rules.convertedSize value) := by
  obtain ⟨baseSize, nonzero⟩ := rules.baseSize_eq
  rw [convertSize, baseSize, Binary64.saturate_div_plus nonzero number,
    Binary64.roundToPrecision_finite]
  rfl

theorem convertSize_nan : rules.convertSize .nan = .nan := by
  simp [convertSize, Binary64.div, Binary64.saturate, roundToPrecision, Binary64.mul,
    Binary64.isFinite]

theorem units_convertedSize_of_isZero
    {value : Binary64}
    (isZero : value.isZero = true) :
    (rules.convertedSize value).units = 0 :=
  Magnitude.units_toPrecision_of_zero (Magnitude.units_quotient_of_isZero _ isZero) _

theorem isZero_convertSize {value : Binary64} (isZero : value.isZero = true) :
    (rules.convertSize value).isZero = true := by
  have number : value.isNan = false := by
    cases value with
    | nan => cases isZero
    | _ => rfl
  rw [rules.convertSize_eq number]
  simpa [Binary64.isZero] using rules.units_convertedSize_of_isZero isZero

/-- A size that is held is a number, and has a minus sign only if it had one or is zero. -/
theorem heldSize_spec {value : Binary64} (number : value.isNan = false) :
    (rules.heldSize value).isNan = false ∧
      ((rules.heldSize value).isMinus = true → (rules.heldSize value).isZero = false →
        value.isMinus = true) := by
  obtain ⟨finite, nonnegative⟩ := rules.minUnitSize_nonnegative
  unfold heldSize
  split
  · split
    next below =>
      refine ⟨?_, fun _ _ => Binary64.isMinus_of_below_zero below⟩
      generalize rules.minUnitSize = size at finite
      cases size with
      | nan => cases finite
      | infinite => cases finite
      | finite => rfl
    next =>
      refine ⟨Binary64.isNan_eq_false_of_isFinite finite, fun minus nonzero => ?_⟩
      rw [Binary64.isZero_of_nonnegative nonnegative minus] at nonzero
      cases nonzero
  · exact ⟨number, fun minus _ => minus⟩

/-- A converted measurement is a number, and has a minus sign only if it had one or is zero. -/
theorem value_convertMeasurement
    {measurement : Measurement}
    (number : measurement.value.isNan = false) :
    (rules.convertMeasurement measurement).value.isNan = false ∧
      ((rules.convertMeasurement measurement).value.isMinus = true →
        (rules.convertMeasurement measurement).value.isZero = false →
        measurement.value.isMinus = true) := by
  unfold convertMeasurement
  split
  · unfold scaleMeasurement
    split
    · exact rules.heldSize_spec number
    · rw [Measurement.setUnit, Measurement.setValue, rules.convertSize_eq number]
      exact ⟨rfl, fun minus _ => minus⟩
  · exact ⟨number, fun minus _ => minus⟩
  · exact ⟨number, fun minus _ => minus⟩

theorem value_convertNumeral (numeral : Numeral) (unit : Text) :
    (rules.convertMeasurement (.ofNumeral numeral unit)).value.isNan = false ∧
      ((rules.convertMeasurement (.ofNumeral numeral unit)).value.isMinus = true →
        (rules.convertMeasurement (.ofNumeral numeral unit)).value.isZero = false →
        numeral.value.isMinus = true) :=
  rules.value_convertMeasurement numeral.isNan_value

/-! ## Units -/

/-- A measurement in the converted unit is converted by its size. -/
theorem convertMeasurement_of_unit
    {rules : Rules}
    {measurement : Measurement}
    (unit : measurement.unit = some rules.unit) :
    rules.convertMeasurement measurement = rules.scaleMeasurement measurement := by
  have scale : rules.eligibility? measurement.unit = some .scale := by simp [eligibility?, unit]
  simp only [convertMeasurement, scale]

/-- The unit of a converted measurement that differs from its source is one of two. -/
theorem unit_convertMeasurement
    {measurement : Measurement}
    (eligible : rules.eligibility? measurement.unit ≠ none) :
    (rules.convertMeasurement measurement).unit = some rules.riUnit ∨
      (rules.convertMeasurement measurement).unit = some rules.unit := by
  unfold convertMeasurement
  split
  next scale =>
    unfold scaleMeasurement
    split
    · right
      unfold eligibility? at scale
      split at scale
      next same => exact same
      next => split at scale <;> cases scale
    · exact Or.inl rfl
  · exact Or.inr rfl
  next none => exact absurd none eligible

end Rules

end CssRescale
