import CssRescale.Proofs.Convert.Tokens

/-!
Contract: conversion comes to rest.

A second pass reads what the first one wrote. Numbers in the resolution-independent
unit are not eligible, sizes that were held are held again at the same size, and
sizes that were relabelled are converted once more. So the second pass gives a text
that every further pass keeps, and where nothing was relabelled the first one does.

Owns: when a held size is held again, and the two laws on passes.
-/

set_option autoImplicit false

namespace CssRescale

open Binary64 (Magnitude roundUnits unitsPerOne)
open Token (Delimited)

theorem Binary64.finite_of_abs_mul
    {left right : Binary64}
    {size : Magnitude}
    (product : (left.mul right).abs = .finite false size) :
    ∃ leftSign leftSize rightSign rightSize,
      left = .finite leftSign leftSize ∧ right = .finite rightSign rightSize := by
  cases left with
  | nan => cases product
  | infinite =>
      cases right with
      | nan => cases product
      | infinite => cases product
      | finite _ size =>
          by_cases zero : size.units = 0 <;> simp [mul, zero, abs] at product
  | finite leftSign leftSize =>
      cases right with
      | nan => cases product
      | infinite => by_cases zero : leftSize.units = 0 <;> simp [mul, zero, abs] at product
      | finite rightSign rightSize => exact ⟨leftSign, leftSize, rightSign, rightSize, rfl, rfl⟩

/-- A number other than zero is below zero exactly if it has a minus sign. -/
theorem Binary64.below_zero_of_ne_zero
    {size : Magnitude}
    (negative : Bool)
    (nonzero : size.units ≠ 0) :
    below (finite negative size) (zero false) = negative := by
  rw [below, rank_zero]
  cases negative with
  | false =>
      have notBelow : ¬(size.units : Int) < 0 := by omega
      simp [isNan, zero, notBelow]
  | true =>
      have below : -(size.units : Int) < 0 := by omega
      simp only [isNan, zero, rank_finite_minus, below]
      rfl

namespace Rules

variable {rules : Rules}

/-! ## Held sizes -/

/-- A finite size is held if its product with the scale rounds to a number that is
neither zero nor above the smallest size. -/
theorem isHeld_finite
    {scaleSign : Bool}
    {scale floor : Magnitude}
    (scaleFactor : rules.minScaleFactor = .finite scaleSign scale)
    (smallest : rules.minUnitSize = .finite false floor)
    (negative : Bool)
    (size : Magnitude) :
    rules.isHeld (.finite negative size) = true ↔
      roundUnits (size.units * scale.units) unitsPerOne ≠ 0 ∧
        roundUnits (size.units * scale.units) unitsPerOne ≤ floor.units := by
  have bounded := floor.representable.1
  unfold isHeld
  rw [scaleFactor, smallest]
  simp only [Binary64.mul, Binary64.ofUnits]
  split
  next below =>
    simp [Binary64.abs, Binary64.equal, Binary64.atMost, Binary64.isNan, Binary64.zero,
      Magnitude.zero]
  next above =>
    have rank := Binary64.rank_infinite_plus
    simp only [Binary64.abs, Binary64.equal, Binary64.atMost, Binary64.isNan, rank,
      Binary64.rank_finite_plus, Bool.and_eq_true, decide_eq_true_eq]
    omega

/-- Where a size is held, it, the scale and the smallest size are finite, and the
smallest size is above zero. -/
theorem finite_of_isHeld
    {value : Binary64}
    (held : rules.isHeld value = true) :
    ∃ negative size scaleSign scale floor,
      value = .finite negative size ∧ rules.minScaleFactor = .finite scaleSign scale ∧
        rules.minUnitSize = .finite false floor ∧ floor.units ≠ 0 := by
  unfold isHeld at held
  simp only [Bool.and_eq_true, Bool.not_eq_true'] at held
  obtain ⟨nonzero, atMost⟩ := held
  simp only [Binary64.atMost, Bool.and_eq_true, Bool.not_eq_true', decide_eq_true_eq] at atMost
  obtain ⟨⟨number, _⟩, order⟩ := atMost
  obtain ⟨sign, floor, smallest⟩ := Binary64.exists_finite rules.minUnitSize_nonnegative.1
  have bounded := floor.representable.1
  have floorOrder : Binary64.rank (.finite sign floor) ≤ floor.units := by
    cases sign
    · exact Int.le_refl _
    · rw [Binary64.rank_finite_minus]
      omega
  rw [smallest] at order
  -- A smallest size that is finite is below every infinity, so the product is finite.
  obtain ⟨size, product⟩ : ∃ size, (value.mul rules.minScaleFactor).abs = .finite false size := by
    cases product : value.mul rules.minScaleFactor with
    | nan =>
        rw [product] at number
        cases number
    | finite negative size => exact ⟨size, rfl⟩
    | infinite negative =>
        rw [product, Binary64.abs, Binary64.rank_infinite_plus] at order
        omega
  have nonzeroSize : size.units ≠ 0 := by
    intro none
    rw [product] at nonzero
    simp [Binary64.equal, Binary64.isNan, Binary64.zero, Magnitude.zero, none] at nonzero
  rw [product, Binary64.rank_finite_plus] at order
  have plus : sign = false := by
    cases sign with
    | false => rfl
    | true =>
        rw [Binary64.rank_finite_minus] at order
        omega
  subst plus
  obtain ⟨negative, valueSize, scaleSign, scale, finiteValue, finiteScale⟩ :=
    Binary64.finite_of_abs_mul product
  exact ⟨negative, valueSize, scaleSign, scale, floor, finiteValue, finiteScale, smallest, by omega⟩

/-- The smallest size is held if a larger one is: its product is between zero and
that of the larger size. -/
theorem isHeld_floor
    {scaleSign : Bool}
    {scale floor size : Magnitude}
    (product : rules.minUnitSize.isZero = true ∨
      (rules.minUnitSize.mul rules.minScaleFactor).isZero = false)
    (scaleFactor : rules.minScaleFactor = .finite scaleSign scale)
    (smallest : rules.minUnitSize = .finite false floor)
    (positive : floor.units ≠ 0)
    (order : floor.units ≤ size.units)
    (held : roundUnits (size.units * scale.units) unitsPerOne ≤ floor.units)
    (negative : Bool) :
    rules.isHeld (.finite negative floor) = true := by
  rw [isHeld_finite scaleFactor smallest]
  constructor
  · intro none
    rw [smallest, scaleFactor] at product
    rcases product with zero | nonzero
    · exact positive (by simpa [Binary64.isZero] using zero)
    · have isZero : Binary64.ofUnits (false != scaleSign) (floor.units * scale.units) unitsPerOne =
          .finite (false != scaleSign) Magnitude.zero :=
        Binary64.ofUnits_eq_finite (false != scaleSign) none
      rw [Binary64.mul, isZero] at nonzero
      cases nonzero
  · have smaller := Binary64.roundUnits_mono unitsPerOne (Nat.mul_le_mul_right scale.units order)
    omega

/-- A size that is not below the smallest one is held at that, with its own sign. -/
theorem heldSize_of_le
    {floor size : Magnitude}
    (smallest : rules.minUnitSize = .finite false floor)
    (positive : floor.units ≠ 0)
    (order : floor.units ≤ size.units)
    (negative : Bool) :
    rules.heldSize (.finite negative size) = .finite negative floor := by
  have large : Binary64.atMost (.finite false floor)
      (Binary64.abs (.finite negative size)) = true := by
    simpa [Binary64.atMost, Binary64.abs, Binary64.isNan] using order
  rw [heldSize, smallest, if_pos large, Binary64.below_zero_of_ne_zero negative (by omega)]
  cases negative <;> rfl

/-- The sizes that a held size becomes are held again, and stay. -/
theorem isHeld_heldSize
    {value : Binary64}
    (product : rules.minUnitSize.isZero = true ∨
      (rules.minUnitSize.mul rules.minScaleFactor).isZero = false)
    (held : rules.isHeld value = true)
    (atLeast : Binary64.atMost rules.minUnitSize value.abs = true) :
    ∃ negative floor,
      rules.heldSize value = .finite negative floor ∧ floor.units ≠ 0 ∧
        rules.isHeld (.finite negative floor) = true ∧
        rules.heldSize (.finite negative floor) = .finite negative floor := by
  obtain ⟨negative, size, scaleSign, scale, floor, rfl, scaleFactor, smallest, positive⟩ :=
    finite_of_isHeld held
  rw [isHeld_finite scaleFactor smallest] at held
  have order : floor.units ≤ size.units := by
    rw [smallest] at atLeast
    simpa [Binary64.atMost, Binary64.abs, Binary64.isNan] using atLeast
  have becomes := heldSize_of_le smallest positive order negative
  have stays := heldSize_of_le smallest positive (Nat.le_refl floor.units) negative
  have heldAgain := isHeld_floor product scaleFactor smallest positive order held.2 negative
  exact ⟨negative, floor, becomes, positive, heldAgain, stays⟩

/-! ## Tokens that stay -/

theorem convertMeasurement_of_heldSize_eq
    {measurement : Measurement}
    (unit : measurement.unit = some rules.unit)
    (held : rules.isHeld measurement.value = true)
    (stays : rules.heldSize measurement.value = measurement.value) :
    rules.convertMeasurement measurement = measurement := by
  rw [convertMeasurement_of_unit unit, scaleMeasurement, if_pos held, stays]
  rfl

theorem convertedToken_of_convertMeasurement_eq
    {numeral : Numeral}
    {unit : Text}
    (stays : rules.convertMeasurement (.ofNumeral numeral unit) = .ofNumeral numeral unit) :
    rules.convertedToken (.number numeral.text unit) = .number numeral.text unit := by
  rw [convertedToken_numeral, stays, Measurement.isModified_ofNumeral]
  rfl

theorem atMost_of_isModified
    {numeral : Numeral}
    {suffix : Text}
    (modified : (Measurement.setValue (rules.heldSize (Measurement.ofNumeral numeral suffix).value)
      (.ofNumeral numeral suffix)).isModified = true) :
    Binary64.atMost rules.minUnitSize (Measurement.ofNumeral numeral suffix).value.abs = true := by
  cases large : Binary64.atMost rules.minUnitSize (Measurement.ofNumeral numeral suffix).value.abs with
  | true => rfl
  | false =>
      have kept : rules.heldSize (Measurement.ofNumeral numeral suffix).value = numeral.value := by
        simp only [heldSize, large, Bool.false_eq_true, if_false]
        rfl
      have same : (Measurement.setValue numeral.value (.ofNumeral numeral suffix)).isModified = false :=
        Measurement.isModified_ofNumeral numeral suffix
      rw [kept, same] at modified
      cases modified

/-- The smallest size, written out and read again, stays where it is held. -/
theorem convertedToken_floor
    {negative : Bool}
    {floor : Magnitude}
    (positive : floor.units ≠ 0)
    (held : rules.isHeld (.finite negative floor) = true)
    (stays : rules.heldSize (.finite negative floor) = .finite negative floor) :
    rules.convertedToken (.number (Binary64.finite negative floor).numeral.text rules.unit) =
      .number (Binary64.finite negative floor).numeral.text rules.unit := by
  have read : (Binary64.finite negative floor).numeral.value = .finite negative floor :=
    Binary64.value_numeral rfl (by simp [Binary64.isZero, positive])
  refine convertedToken_of_convertMeasurement_eq (convertMeasurement_of_heldSize_eq ?_ ?_ ?_)
  · exact rules.unitOf_of_named (Or.inl rfl)
  · rw [← read] at held
    exact held
  · rw [← read] at stays
    exact stays

/-- What conversion leaves of a number in the converted unit stays. -/
theorem convertedToken_scale
    (product : rules.minUnitSize.isZero = true ∨
      (rules.minUnitSize.mul rules.minScaleFactor).isZero = false)
    (apart : ¬(rules.riUnit = rules.unit ∨ rules.riUnit = rules.absoluteUnit))
    (numeral : Numeral) :
    rules.convertedToken (rules.convertedToken (.number numeral.text rules.unit)) =
      rules.convertedToken (.number numeral.text rules.unit) := by
  have unit : (Measurement.ofNumeral numeral rules.unit).unit = some rules.unit :=
    rules.unitOf_of_named (Or.inl rfl)
  have converted := convertMeasurement_of_unit unit
  rw [convertedToken_numeral, converted]
  split
  next modified =>
    unfold scaleMeasurement at modified ⊢
    split at modified
    next held =>
      obtain ⟨negative, floor, becomes, positive, heldAgain, stays⟩ :=
        isHeld_heldSize product held (atMost_of_isModified modified)
      have kept := convertedToken_floor positive heldAgain stays
      rw [if_pos held]
      simp only [Measurement.setValue, unit, Option.getD_some, becomes]
      exact kept
    next free =>
      -- The new unit is none that the rules convert.
      rw [if_neg free]
      exact rules.convertedToken_of_other _ apart
  next unmodified =>
    rw [convertedToken_numeral, converted, if_neg unmodified]

/-- What conversion leaves of a number stays, unless it was relabelled. -/
theorem convertedToken_convertedToken
    (product : rules.minUnitSize.isZero = true ∨
      (rules.minUnitSize.mul rules.minScaleFactor).isZero = false)
    (apart : ¬(rules.riUnit = rules.unit ∨ rules.riUnit = rules.absoluteUnit))
    {token : Token}
    (reads : token.ReadsNumeral)
    (other : ∀ literal, token = .number literal rules.absoluteUnit →
      rules.absoluteUnit = rules.unit) :
    rules.convertedToken (rules.convertedToken token) = rules.convertedToken token := by
  cases token with
  | number literal unit =>
      obtain ⟨numeral, rfl⟩ := reads literal unit rfl
      by_cases scaled : unit = rules.unit
      · rw [scaled]
        exact convertedToken_scale product apart numeral
      · have ineligible : ¬(unit = rules.unit ∨ unit = rules.absoluteUnit) := by
          rintro (same | rfl)
          · exact scaled same
          · exact scaled (other numeral.text rfl)
        rw [rules.convertedToken_of_other numeral ineligible,
          rules.convertedToken_of_other numeral ineligible]
  | _ => rfl

theorem convertedToken_relabel
    (other : rules.absoluteUnit ≠ rules.unit)
    (numeral : Numeral) :
    rules.convertedToken (.number numeral.text rules.absoluteUnit) =
      .number numeral.value.numeral.text rules.unit := by
  have unit : (Measurement.ofNumeral numeral rules.absoluteUnit).unit = some rules.absoluteUnit :=
    rules.unitOf_of_named (Or.inr rfl)
  have relabel : rules.eligibility? (Measurement.ofNumeral numeral rules.absoluteUnit).unit =
      some .relabel := by
    simp [eligibility?, unit, other]
  have modified : (Measurement.setUnit rules.unit (.ofNumeral numeral rules.absoluteUnit)).isModified =
      true := by
    have different : (some rules.unit != some rules.absoluteUnit) = true := by
      simpa using other.symm
    show (_ || (some rules.unit != Measurement.unitOf rules.absoluteUnit)) = true
    rw [rules.unitOf_of_named (Or.inr rfl), different, Bool.or_true]
  rw [convertedToken_numeral, convertMeasurement, relabel]
  simp only [modified, if_true]
  rfl

theorem convertedToken_settles
    (product : rules.minUnitSize.isZero = true ∨
      (rules.minUnitSize.mul rules.minScaleFactor).isZero = false)
    (apart : ¬(rules.riUnit = rules.unit ∨ rules.riUnit = rules.absoluteUnit))
    {token : Token}
    (reads : token.ReadsNumeral) :
    rules.convertedToken (rules.convertedToken (rules.convertedToken token)) =
      rules.convertedToken (rules.convertedToken token) := by
  by_cases same : rules.absoluteUnit = rules.unit
  · have once := convertedToken_convertedToken product apart reads fun _ _ => same
    rw [once, once]
  · by_cases absolute : ∃ literal, token = .number literal rules.absoluteUnit
    · obtain ⟨literal, rfl⟩ := absolute
      obtain ⟨numeral, rfl⟩ := reads literal rules.absoluteUnit rfl
      rw [convertedToken_relabel same]
      exact convertedToken_scale product apart numeral.value.numeral
    · have once := convertedToken_convertedToken product apart reads fun literal shape =>
        absurd ⟨literal, shape⟩ absolute
      rw [once, once]

/-! ## Texts that stay -/

/-- Conversion comes to rest.

The units of the rules are plain identifiers, the resolution-independent unit is
neither of the units that are converted, and the smallest size is zero or does not
vanish when it is scaled down. Then, for every value in which no number comes
directly after a token that it may join, a third pass changes nothing; and if no
number has the absolute unit, neither does a second one. -/
theorem convertText_settles
    (rules : Rules)
    (plain : rules.HasPlainUnits)
    (notUnit : rules.riUnit ≠ rules.unit)
    (notAbsolute : rules.riUnit ≠ rules.absoluteUnit)
    (product : rules.minUnitSize.isZero = true ∨
      (rules.minUnitSize.mul rules.minScaleFactor).isZero = false)
    (source : Text)
    (delimited : Delimited (Token.scan source)) :
    rules.convertText (rules.convertText (rules.convertText source)) =
        rules.convertText (rules.convertText source) ∧
      ((∀ literal unit, .number literal unit ∈ Token.scan source → unit ≠ rules.absoluteUnit) →
        rules.convertText (rules.convertText source) = rules.convertText source) := by
  have apart : ¬(rules.riUnit = rules.unit ∨ rules.riUnit = rules.absoluteUnit) :=
    not_or.mpr ⟨notUnit, notAbsolute⟩
  have reads : ∀ token ∈ Token.scan source, token.ReadsNumeral := Token.readsNumeral_of_mem_scan
  have first := plain.scan_convertText delimited
  have firstDelimited : Delimited (Token.scan (rules.convertText source)) := by
    rw [first]
    exact delimited_map delimited
  have second := plain.scan_convertText firstDelimited
  constructor
  · rw [rules.convertText_eq_concat (rules.convertText (rules.convertText source)), second, first,
      rules.convertText_eq_concat (rules.convertText source), first]
    congr 1
    simp only [List.map_map]
    exact List.map_congr_left fun token scanned =>
      convertedToken_settles product apart (reads token scanned)
  · intro others
    rw [rules.convertText_eq_concat (rules.convertText source), first, List.map_map,
      rules.convertText_eq_concat source]
    congr 1
    apply List.map_congr_left
    intro token scanned
    apply convertedToken_convertedToken product apart (reads token scanned)
    intro literal shape
    exact absurd rfl (others literal rules.absoluteUnit (shape ▸ scanned))

/-- The default rules hold one of these sizes and convert the other. -/
theorem convertText_settles_default :
    Delimited (Token.scan "36px 1.2px".toList) ∧
      default.convertText (default.convertText (default.convertText "36px 1.2px".toList)) =
        default.convertText (default.convertText "36px 1.2px".toList) ∧
      default.convertText (default.convertText "36px 1.2px".toList) =
        default.convertText "36px 1.2px".toList := by
  have scanned : Token.scan "36px 1.2px".toList =
      [.number "36".toList "px".toList, .space [' '], .number "1.2".toList "px".toList] := by
    decide +kernel
  have delimited : Delimited (Token.scan "36px 1.2px".toList) := by
    rw [scanned]
    simp [Delimited, Token.joinsNumber, Token.isNumber]
  have product : (default.minUnitSize.mul default.minScaleFactor).isZero = false := by
    decide +kernel
  obtain ⟨third, second⟩ := convertText_settles default hasPlainUnits_default (by decide)
    (by decide) (Or.inr product) "36px 1.2px".toList delimited
  refine ⟨delimited, third, second fun literal unit member => ?_⟩
  rw [scanned] at member
  simp only [List.mem_cons, List.not_mem_nil, or_false, reduceCtorEq, false_or,
    Token.number.injEq] at member
  rcases member with ⟨_, rfl⟩ | ⟨_, rfl⟩
  · decide
  · decide

end Rules

end CssRescale
