import CssRescale.Proofs.Convert.Passes
import CssRescale.Proofs.Decimal.Layout

/-!
Contract: the precision bounds the decimal places of converted sizes.

Up to the 22nd, powers of ten are exact. A size that is rounded to a precision is then the
number nearest to a whole number over such a power, so it reads back from a decimal number
with so many places, and the shortest one has no more. A size that is too large to be
rounded is a whole number.

Owns:
- exact powers of ten;
- a decimal number with few places that reads back as a rounded size;
- the decimal places of converted measurements as they are written, and that one which is
  written as its source may have more.
-/

set_option autoImplicit false

namespace CssRescale

open Binary64 (Magnitude equal)

namespace Binary64

/-! ## Exact powers of ten -/

/-- The largest power of ten that is exact. -/
def exactPower : Nat := 22

theorem roundUnits_ten_pow {power : Nat} (small : power ≤ exactPower) :
    roundUnits (10 ^ power * unitsPerOne) 1 = 10 ^ power * unitsPerOne := by
  have significand : 5 ^ power < 2 ^ 53 :=
    Nat.lt_of_le_of_lt (Nat.pow_le_pow_right (by decide) small) (by decide +kernel)
  have multiple : spacing (10 ^ power * unitsPerOne) ∣ 10 ^ power * unitsPerOne := by
    unfold unitsPerOne
    generalize 1074 = one
    rw [show (10 : Nat) = 5 * 2 from rfl, Nat.mul_pow, Nat.mul_assoc, ← Nat.pow_add]
    exact spacing_dvd_of_lt significand _
  have kept := roundUnits_mul Nat.one_pos multiple
  rw [Nat.mul_one] at kept
  exact kept

theorem ten_pow_lt_overflowUnits {power : Nat} (small : power ≤ exactPower) :
    10 ^ power * unitsPerOne < overflowUnits := by
  have bound : 10 ^ exactPower * unitsPerOne < overflowUnits := by decide +kernel
  apply Nat.lt_of_le_of_lt _ bound
  exact Nat.mul_le_mul_right _ (Nat.pow_le_pow_right (by decide) small)

theorem ofNat_ten_pow {power : Nat} (small : power ≤ exactPower) :
    ∃ size : Magnitude,
      ofNat (10 ^ power) = finite false size ∧ size.units = 10 ^ power * unitsPerOne := by
  have rounds := roundUnits_ten_pow small
  have below := ten_pow_lt_overflowUnits small
  rw [← rounds] at below
  exact ⟨_, ofUnits_eq_nearest false below, (Magnitude.units_nearest below).trans rounds⟩

theorem ofNat_ten_pow_mul
    {left right : Nat}
    (small : left + right ≤ exactPower) :
    (ofNat (10 ^ left)).mul (ofNat (10 ^ right)) = ofNat (10 ^ (left + right)) := by
  have leftSmall : left ≤ exactPower := by omega
  have rightSmall : right ≤ exactPower := by omega
  obtain ⟨leftSize, leftPower, leftUnits⟩ := ofNat_ten_pow leftSmall
  obtain ⟨rightSize, rightPower, rightUnits⟩ := ofNat_ten_pow rightSmall
  have product : leftSize.units * rightSize.units =
      10 ^ (left + right) * unitsPerOne * unitsPerOne := by
    rw [leftUnits, rightUnits, Nat.pow_add, Nat.mul_mul_mul_comm, Nat.mul_assoc (_ * _)]
  have rounds := roundUnits_mul_mul unitsPerOne_pos (10 ^ (left + right) * unitsPerOne) 1
  rw [Nat.one_mul] at rounds
  rw [leftPower, rightPower, mul_plus, product, ofNat]
  exact ofUnits_congr false rounds

/-- A power to a number is its square to half the number, with a remainder of one power. -/
theorem mul_eq_halves (base exponent : Nat) :
    base * exponent = (base + base) * (exponent / 2) + base * (exponent % 2) := by
  calc
    base * exponent = base * (2 * (exponent / 2) + exponent % 2) := by rw [Nat.div_add_mod]
    _ = (base + base) * (exponent / 2) + base * (exponent % 2) := by
      rw [Nat.mul_add, ← Nat.mul_assoc, Nat.mul_two]

/-- What squaring an exact power leaves over goes into the result, which stays exact. -/
theorem ofNat_ten_pow_remainder
    {result base exponent : Nat}
    (small : result + base * (exponent % 2) ≤ exactPower) :
    (if exponent % 2 = 1 then (ofNat (10 ^ result)).mul (ofNat (10 ^ base))
        else ofNat (10 ^ result)) =
      ofNat (10 ^ (result + base * (exponent % 2))) := by
  split
  next odd =>
    rw [odd, Nat.mul_one] at small ⊢
    exact ofNat_ten_pow_mul small
  next even =>
    have none : exponent % 2 = 0 := by omega
    rw [none, Nat.mul_zero, Nat.add_zero]

/-- Every product on the way to an exact power is exact. -/
theorem mulPower_ten_pow
    {result base : Nat}
    (exponent : Nat)
    (small : result + base * exponent ≤ exactPower) :
    mulPower (ofNat (10 ^ result)) (ofNat (10 ^ base)) exponent =
      ofNat (10 ^ (result + base * exponent)) := by
  induction exponent using Nat.strongRecOn generalizing result base with
  | ind exponent inductionHypothesis =>
      have halves := mul_eq_halves base exponent
      rw [mulPower, ofNat_ten_pow_remainder (by omega)]
      split
      next last => rw [halves, last, Nat.mul_zero, Nat.zero_add]
      next more =>
        have square : base + base ≤ (base + base) * (exponent / 2) :=
          Nat.le_mul_of_pos_right _ (Nat.pos_of_ne_zero more)
        rw [ofNat_ten_pow_mul (by omega), inductionHypothesis (exponent / 2) (by omega) (by omega),
          halves, Nat.add_assoc, Nat.add_comm (base * (exponent % 2))]

theorem tenPower_of_le {precision : Nat} (small : precision ≤ exactPower) :
    ∃ factor : Magnitude,
      tenPower precision = finite false factor ∧ factor.units = 10 ^ precision * unitsPerOne := by
  have capped : min precision largestExponent = precision := by
    have : exactPower ≤ largestExponent := by decide
    omega
  have power : mulPower (ofNat (10 ^ 0)) (ofNat (10 ^ 1)) precision =
      ofNat (10 ^ (0 + 1 * precision)) :=
    mulPower_ten_pow precision (by omega)
  rw [Nat.zero_add, Nat.one_mul] at power
  obtain ⟨factor, exact_power, units⟩ := ofNat_ten_pow small
  refine ⟨factor, ?_, units⟩
  rw [← exact_power, ← power, tenPower, capped]
  rfl

/-! ## Rounded sizes -/

/-- A size that is too large to be scaled by an exact power is a whole number. -/
theorem unitsPerOne_dvd_of_overflow
    {size : Magnitude}
    {power : Nat}
    (small : power ≤ exactPower)
    (overflow : overflowUnits ≤ roundUnits (size.units * (10 ^ power * unitsPerOne)) unitsPerOne) :
    unitsPerOne ∣ size.units := by
  have positive := unitsPerOne_pos
  apply unitsPerOne_dvd_of_le size.representable.2
  have beyond := lt_of_overflow positive overflow
  rw [← Nat.mul_assoc, Nat.mul_lt_mul_right positive] at beyond
  have bound : 2 ^ 53 * unitsPerOne * 10 ^ exactPower ≤ Magnitude.largest.units := by decide +kernel
  apply Nat.le_of_lt
  apply Nat.lt_of_mul_lt_mul_right (a := 10 ^ exactPower)
  calc
    2 ^ 53 * unitsPerOne * 10 ^ exactPower ≤ Magnitude.largest.units := bound
    _ < size.units * 10 ^ power := beyond
    _ ≤ size.units * 10 ^ exactPower :=
      Nat.mul_le_mul_left _ (Nat.pow_le_pow_right (by decide) small)

/-- A rounded size is the number nearest to one with so many decimal places. -/
theorem exists_readsBack_toPrecision
    {precision : Nat}
    (small : precision ≤ exactPower)
    (size : Magnitude) :
    ∃ number : Decimal,
      -(precision : Int) ≤ number.exponent ∧ number.exponent ≤ 0 ∧
        Decimal.readsBack (size.toPrecision precision) number = true := by
  obtain ⟨factor, power, units⟩ := tenPower_of_le small
  have positive := unitsPerOne_pos
  simp only [Magnitude.toPrecision, power, Magnitude.scaledBy]
  split
  next below =>
    have large : unitsPerOne ≤ factor.units := by
      rw [units]
      exact Nat.le_mul_of_pos_left _ (Nat.pow_pos (by decide))
    generalize Magnitude.nearest (size.units * factor.units) unitsPerOne = scaled
    obtain ⟨digits, whole⟩ := scaled.unitsPerOne_dvd_round
    refine ⟨⟨digits, -(precision : Int)⟩, Int.le_refl _, by simp only; omega, ?_⟩
    have places : (- -(precision : Int)).toNat = precision := by omega
    have none : (-(precision : Int)).toNat = 0 := by omega
    rw [Decimal.readsBack_iff, Magnitude.units_nearest (lt_overflowUnits_div large _), whole, units]
    simp only [places, none, Nat.pow_zero, Nat.mul_one]
    rw [Nat.mul_comm unitsPerOne digits, roundUnits_mul_mul positive]
  next above =>
    rw [units] at above
    exact ⟨⟨size.units / unitsPerOne, 0⟩, by simp, Int.le_refl 0,
      Decimal.readsBack_whole (unitsPerOne_dvd_of_overflow small (Nat.le_of_not_lt above))⟩

/-- A rounded size is written with at most so many decimal places. -/
theorem decimalPlaces_toPrecision
    {precision : Nat}
    (small : precision ≤ exactPower)
    (negative : Bool)
    (size : Magnitude) :
    Text.decimalPlaces (finite negative (size.toPrecision precision)).cssText ≤ precision := by
  obtain ⟨number, fine, fractional, reads⟩ := exists_readsBack_toPrecision small size
  have places := decimalPlaces_cssText_le negative reads fractional
  omega

end Binary64

/-! ## Converted measurements -/

namespace Rules

variable {rules : Rules}

theorem decimalPlaces_convertSize
    (small : rules.precision ≤ Binary64.exactPower)
    (value : Binary64) :
    Text.decimalPlaces (rules.convertSize value).cssText ≤ rules.precision := by
  cases number : value.isNan with
  | false =>
      rw [rules.convertSize_eq number]
      exact Binary64.decimalPlaces_toPrecision small _ _
  | true =>
      cases value with
      | nan =>
          rw [rules.convertSize_nan]
          exact Nat.zero_le _
      | _ => cases number

/-- A measurement that got the resolution-independent unit differs from its source unless
both the unit and the value are those that were read. -/
theorem isModified_of_converted
    {measurement : Measurement}
    (converted : (rules.convertMeasurement measurement).unit = some rules.riUnit) :
    (rules.convertMeasurement measurement).isModified =
      (!equal (rules.convertMeasurement measurement).value measurement.sourceValue
        || some rules.riUnit != measurement.sourceUnit) := by
  obtain ⟨sourceValue, -, suffix⟩ := rules.read_convertMeasurement measurement
  rw [Measurement.isModified, Measurement.sourceUnit, sourceValue, suffix, converted,
    Measurement.sourceUnit]

theorem css_of_converted
    {measurement : Measurement}
    (converted : (rules.convertMeasurement measurement).unit = some rules.riUnit)
    (differs : measurement.sourceUnit = some rules.riUnit →
      equal (rules.convertMeasurement measurement).value measurement.sourceValue = false) :
    (rules.convertMeasurement measurement).css =
      (rules.convertMeasurement measurement).value.cssText ++ rules.riUnit := by
  have modified : (rules.convertMeasurement measurement).isModified = true := by
    rw [isModified_of_converted converted]
    by_cases sourceUnit : measurement.sourceUnit = some rules.riUnit
    · rw [differs sourceUnit]
      rfl
    · rw [bne_iff_ne.mpr (Ne.symm sourceUnit), Bool.or_true]
  rw [Measurement.css, if_pos modified, converted, Option.getD_some]

/-- A measurement that is back at what was read is written as its source. -/
theorem css_of_converted_back
    {measurement : Measurement}
    (converted : (rules.convertMeasurement measurement).unit = some rules.riUnit)
    (sourceUnit : measurement.sourceUnit = some rules.riUnit)
    (same : equal (rules.convertMeasurement measurement).value measurement.sourceValue = true) :
    (rules.convertMeasurement measurement).css = measurement.source := by
  have unmodified : (rules.convertMeasurement measurement).isModified = false := by
    rw [isModified_of_converted converted, same, sourceUnit, bne_self_eq_false]
    rfl
  rw [Measurement.css_of_isModified_eq_false unmodified, source_convertMeasurement]

/-- The precision bounds the decimal places of what conversion writes.

A measurement that gets the resolution-independent unit has a number with at most so many
places, whether its size was rounded or was too large for it, and is written as this number
and the unit. This is so for every precision up to the largest exact power of ten. Only a
measurement that is again what was read from its source is written as that source. -/
theorem decimalPlaces_css_convertMeasurement
    (small : rules.precision ≤ 22)
    (apart : rules.riUnit ≠ rules.unit)
    {measurement : Measurement}
    (unit : measurement.unit = some rules.unit)
    (converted : (rules.convertMeasurement measurement).unit = some rules.riUnit) :
    Text.decimalPlaces (rules.convertMeasurement measurement).value.cssText ≤ rules.precision ∧
      ((measurement.sourceUnit = some rules.riUnit →
          equal (rules.convertMeasurement measurement).value measurement.sourceValue = false) →
        (rules.convertMeasurement measurement).css =
          (rules.convertMeasurement measurement).value.cssText ++ rules.riUnit) ∧
      (measurement.sourceUnit = some rules.riUnit →
        equal (rules.convertMeasurement measurement).value measurement.sourceValue = true →
        (rules.convertMeasurement measurement).css = measurement.source) := by
  refine ⟨?places, css_of_converted converted, css_of_converted_back converted⟩
  rw [convertMeasurement_of_unit unit, scaleMeasurement] at converted ⊢
  split at converted
  next =>
    -- A size that is held keeps its unit.
    have kept : some rules.unit = some rules.riUnit := unit.symm.trans converted
    exact absurd (Option.some.inj kept).symm apart
  next free =>
    rw [if_neg free]
    exact decimalPlaces_convertSize small measurement.value

/-- A size so large that its product with the power of ten overflows, and one that is back at
what was read. -/
theorem decimalPlaces_css_convertMeasurement_large :
    let large : Measurement :=
      ⟨Decimal.toBinary64 false ⟨1, 308⟩, some ['p', 'x'], "1e308".toList, ['p', 'x'],
        Decimal.toBinary64 false ⟨1, 308⟩⟩
    let back : Measurement :=
      ⟨.ofNat 36, some ['p', 'x'], "1.500000000".toList, ['r', 'e', 'm'],
        Decimal.toBinary64 false ⟨15, -1⟩⟩
    (default.convertMeasurement large).unit = some ['r', 'e', 'm'] ∧
      (default.convertMeasurement large).css =
        (default.convertMeasurement large).value.cssText ++ ['r', 'e', 'm'] ∧
      Text.decimalPlaces (default.convertMeasurement large).value.cssText ≤ 5 ∧
      (default.convertMeasurement back).unit = some ['r', 'e', 'm'] ∧
      (default.convertMeasurement back).css = "1.500000000rem".toList ∧
      Text.decimalPlaces (default.convertMeasurement back).value.cssText ≤ 5 := by
  intro large back
  have small : (default : Rules).precision ≤ 22 := by decide
  have converted : (default.convertMeasurement large).unit = some ['r', 'e', 'm'] := by
    decide +kernel
  have convertedBack : (default.convertMeasurement back).unit = some ['r', 'e', 'm'] := by
    decide +kernel
  obtain ⟨places, css, -⟩ :=
    decimalPlaces_css_convertMeasurement small (by decide) rfl converted
  obtain ⟨placesBack, -, source⟩ :=
    decimalPlaces_css_convertMeasurement small (by decide) rfl convertedBack
  exact ⟨converted, css (by decide), places, convertedBack, source rfl (by decide +kernel),
    placesBack⟩

/-- A size that is back at what was read is written as its source, with all its places. -/
theorem css_convertMeasurement_back :
    ∃ read, Measurement.readSplit? "1.500000000rem".toList 11 = some read ∧
      let measurement := (read.setValue (.ofNat 36)).setUnit default.unit
      default.precision = 5 ∧ default.riUnit ≠ default.unit ∧
        measurement.unit = some default.unit ∧
        (default.convertMeasurement measurement).unit = some default.riUnit ∧
        (default.convertMeasurement measurement).css = "1.500000000".toList ++ default.riUnit ∧
        Text.decimalPlaces "1.500000000".toList = 9 := by
  refine ⟨⟨Decimal.toBinary64 false ⟨15, -1⟩, some ['r', 'e', 'm'], "1.500000000".toList,
    ['r', 'e', 'm'], Decimal.toBinary64 false ⟨15, -1⟩⟩, by decide +kernel, rfl, by decide, rfl, ?_⟩
  decide +kernel

end Rules

end CssRescale
