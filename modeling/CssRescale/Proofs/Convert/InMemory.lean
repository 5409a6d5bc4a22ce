import CssRescale.Proofs.Convert.Passes
import Mathlib.Logic.Function.Iterate

/-!
Contract: passes over one tree agree with passes over its text.

A pass over a text prints its numbers and reads them again; a pass over a tree keeps
them, together with the text they were read from once. A measurement of the tree and the
number token at its place in the text go through the same passes side by side: they are
as read, or relabelled, or at rest. In each of these stages they are written the same,
although a zero has lost its sign in the text.

Owns:
- sizes that are zero, and sizes that are equal, in conversion and as texts;
- the stages of a measurement and its token, and the step from one to the next;
- agreement of any number of passes over a tree and over its text.
-/

set_option autoImplicit false

namespace CssRescale

open Binary64 (Magnitude)
open Token (Delimited)

/-! ## Zeros and equal numbers -/

namespace Binary64

/-- A zero is one of two numbers. -/
theorem eq_zero_of_isZero {value : Binary64} (isZero : value.isZero = true) :
    ∃ negative, value = zero negative := by
  cases value with
  | nan => cases isZero
  | infinite => cases isZero
  | finite negative size =>
      have none : size.units = 0 := by simpa [Binary64.isZero] using isZero
      have same : size = Magnitude.zero := Magnitude.eq_of_units none
      exact ⟨negative, by rw [same, zero]⟩

theorem cssText_of_isZero {value : Binary64} (isZero : value.isZero = true) :
    value.cssText = ['0'] := by
  obtain ⟨negative, rfl⟩ := eq_zero_of_isZero isZero
  rfl

/-- A finite number other than zero is read back from its text. -/
theorem value_numeral_of_isFinite
    {value : Binary64}
    (finite : value.isFinite = true)
    (nonzero : value.isZero = false) :
    value.numeral.value = value := by
  rw [value_numeral (isNan_eq_false_of_isFinite finite) nonzero]
  cases value with
  | nan => cases finite
  | infinite => cases finite
  | finite => rfl

/-- What is read back from the text of a finite number has that text. -/
theorem cssText_value_numeral {value : Binary64} (finite : value.isFinite = true) :
    value.numeral.value.cssText = value.numeral.text := by
  rw [← cssText_eq]
  cases zero : value.isZero with
  | true =>
      rw [value_numeral_of_isZero zero, cssText_of_isZero zero]
      rfl
  | false => rw [value_numeral_of_isFinite finite zero]

/-- Equal numbers are written the same. -/
theorem cssText_of_equal {left right : Binary64} (same : equal left right = true) :
    left.cssText = right.cssText := by
  simp only [equal, Bool.and_eq_true, Bool.not_eq_true', beq_iff_eq] at same
  obtain ⟨⟨leftNumber, rightNumber⟩, rank⟩ := same
  cases left with
  | nan => cases leftNumber
  | infinite leftNegative =>
      cases right with
      | nan => cases rightNumber
      | finite negative size => exact absurd rank (rank_infinite_ne leftNegative negative size)
      | infinite negative => rw [rank_infinite_injective rank]
  | finite leftNegative leftSize =>
      cases right with
      | nan => cases rightNumber
      | infinite negative =>
          exact absurd rank.symm (rank_infinite_ne negative leftNegative leftSize)
      | finite negative size =>
          by_cases zero : leftSize.units = 0
          · have bothZero : size.units = 0 := by
              cases leftNegative <;> cases negative <;>
                simp only [Binary64.rank_finite_plus, Binary64.rank_finite_minus] at rank <;> omega
            simp only [cssText, if_pos zero, if_pos bothZero]
          · have sameSign : leftNegative = negative := by
              cases leftNegative <;> cases negative <;>
                simp only [Binary64.rank_finite_plus, Binary64.rank_finite_minus] at rank <;>
                first | rfl | omega
            have sameUnits : leftSize.units = size.units := by
              cases leftNegative <;> cases negative <;>
                simp only [Binary64.rank_finite_plus, Binary64.rank_finite_minus] at rank <;> omega
            rw [sameSign, Magnitude.eq_of_units sameUnits]

end Binary64

namespace Rules

variable {rules : Rules}

theorem isHeld_of_isZero {value : Binary64} (isZero : value.isZero = true) :
    rules.isHeld value = false := by
  cases held : rules.isHeld value with
  | false => rfl
  | true =>
      obtain ⟨negative, size, scaleSign, scale, floor, rfl, scaleFactor, smallest, -⟩ :=
        finite_of_isHeld held
      have none : size.units = 0 := by simpa [Binary64.isZero] using isZero
      rw [isHeld_finite scaleFactor smallest, none, Nat.zero_mul, Binary64.roundUnits_zero] at held
      exact absurd rfl held.1

/-! ## One pass over one measurement -/

section

variable
  (product : rules.minUnitSize.isZero = true ∨
    (rules.minUnitSize.mul rules.minScaleFactor).isZero = false)
  (apart : ¬(rules.riUnit = rules.unit ∨ rules.riUnit = rules.absoluteUnit))

include apart in
theorem eligibility?_riUnit : rules.eligibility? (some rules.riUnit) = none := by
  obtain ⟨notUnit, notAbsolute⟩ := not_or.mp apart
  simp [eligibility?, notUnit, notAbsolute]

include product apart in
/-- A measurement in the converted unit is at rest after one pass. -/
theorem convertMeasurement_convertMeasurement
    {measurement : Measurement}
    (unit : measurement.unit = some rules.unit) :
    rules.convertMeasurement (rules.convertMeasurement measurement) =
      rules.convertMeasurement measurement := by
  rw [convertMeasurement_of_unit unit, scaleMeasurement]
  split
  next held =>
    cases atLeast : Binary64.atMost rules.minUnitSize measurement.value.abs with
    | true =>
        obtain ⟨negative, floor, becomes, -, heldAgain, stays⟩ :=
          isHeld_heldSize product held atLeast
        rw [becomes]
        exact convertMeasurement_of_heldSize_eq unit heldAgain stays
    | false =>
        have kept : rules.heldSize measurement.value = measurement.value := by
          rw [heldSize, if_neg (by simp [atLeast])]
        rw [kept]
        exact convertMeasurement_of_heldSize_eq unit held kept
  next =>
    exact rules.convertMeasurement_of_eligibility?_eq_none (eligibility?_riUnit apart)

/-! ## Relabelled measurements -/

/-- The text of a size that was converted, in the unit that it gets. -/
def scaledText (rules : Rules) (value : Binary64) : Text :=
  if rules.isHeld value then (rules.heldSize value).cssText ++ rules.unit
  else (rules.convertSize value).cssText ++ rules.riUnit

/-- What is read back from the text of a size is converted to the same text. -/
theorem scaledText_numeral {value : Binary64} (finite : value.isFinite = true) :
    rules.scaledText value.numeral.value = rules.scaledText value := by
  cases zero : value.isZero with
  | true =>
      have readZero : value.numeral.value.isZero = true := by
        rw [Binary64.value_numeral_of_isZero zero]
        rfl
      simp only [scaledText, isHeld_of_isZero zero, isHeld_of_isZero readZero,
        Binary64.cssText_of_isZero (rules.isZero_convertSize zero),
        Binary64.cssText_of_isZero (rules.isZero_convertSize readZero), Bool.false_eq_true, if_false]
  | false => rw [Binary64.value_numeral_of_isFinite finite zero]

/-- A measurement that differs in its unit from what is written, or whose held size is
written anyway, has the text of its converted size. -/
theorem css_scaleMeasurement
    {measurement : Measurement}
    (held : (measurement.setValue (rules.heldSize measurement.value)).css =
      (rules.heldSize measurement.value).cssText ++ rules.unit)
    (different : measurement.sourceUnit ≠ some rules.riUnit) :
    (rules.scaleMeasurement measurement).css = rules.scaledText measurement.value := by
  unfold scaleMeasurement scaledText
  split
  next => exact held
  next => exact Measurement.css_of_unit_ne different.symm

/-- A new size in the place of one that was written in its shortest form is written in
this form too, also where the two are equal. -/
theorem css_setValue
    {numeral : Numeral}
    (shortest : numeral.value.cssText = numeral.text)
    (size : Binary64)
    {suffix : Text}
    (unit : Measurement.unitOf suffix = some suffix) :
    (Measurement.setValue size (.ofNumeral numeral suffix)).css = size.cssText ++ suffix := by
  have modified : (Measurement.setValue size (.ofNumeral numeral suffix)).isModified =
      !Binary64.equal size numeral.value := by
    show (_ || Measurement.unitOf suffix != Measurement.unitOf suffix) = _
    rw [bne_self_eq_false, Bool.or_false]
    rfl
  rw [Measurement.css, modified]
  cases equal : Binary64.equal size numeral.value with
  | true =>
      rw [Binary64.cssText_of_equal equal, shortest]
      rfl
  | false =>
      show size.cssText ++ (Measurement.unitOf suffix).getD [] = _
      rw [unit]
      rfl

include apart in
/-- A relabelled measurement is converted to the same text as what is read back from its
own text. -/
theorem css_relabelled
    {numeral : Numeral}
    (finite : numeral.value.isFinite = true)
    (other : rules.absoluteUnit ≠ rules.unit) :
    (rules.convertMeasurement
        (Measurement.setUnit rules.unit (.ofNumeral numeral rules.absoluteUnit))).css =
      (rules.convertMeasurement (.ofNumeral numeral.value.numeral rules.unit)).css := by
  have named : Measurement.unitOf rules.unit = some rules.unit := rules.unitOf_of_named (Or.inl rfl)
  have absolute : Measurement.unitOf rules.absoluteUnit = some rules.absoluteUnit :=
    rules.unitOf_of_named (Or.inr rfl)
  have unit : (Measurement.ofNumeral numeral.value.numeral rules.unit).unit = some rules.unit :=
    named
  have inTree : (rules.scaleMeasurement
      (Measurement.setUnit rules.unit (.ofNumeral numeral rules.absoluteUnit))).css =
        rules.scaledText numeral.value := by
    refine css_scaleMeasurement (Measurement.css_of_unit_ne fun same => other ?_) fun same => apart (Or.inr ?_)
    · exact Option.some.inj (absolute.symm.trans same.symm)
    · exact (Option.some.inj (absolute.symm.trans same)).symm
  have inText : (rules.scaleMeasurement (.ofNumeral numeral.value.numeral rules.unit)).css =
      rules.scaledText numeral.value.numeral.value := by
    refine css_scaleMeasurement ?_ fun same => apart (Or.inl ?_)
    · exact css_setValue (Binary64.cssText_value_numeral finite) _ named
    · exact (Option.some.inj (named.symm.trans same)).symm
  rw [convertMeasurement_of_unit rfl, convertMeasurement_of_unit unit, inTree, inText,
    scaledText_numeral finite]

/-! ## Passes side by side -/

/-- The stages that a measurement and the token in its place go through. -/
inductive Stage (rules : Rules) : Measurement → Token → Prop where
  /-- Both are as they were read. -/
  | read (numeral : Numeral) (unit : Text)
      (finite : numeral.value.isFinite = true) :
      Stage rules (.ofNumeral numeral unit) (.number numeral.text unit)
  /-- The measurement has a new unit, and the token was written with it. -/
  | relabelled (numeral : Numeral)
      (finite : numeral.value.isFinite = true)
      (other : rules.absoluteUnit ≠ rules.unit) :
      Stage rules (Measurement.setUnit rules.unit (.ofNumeral numeral rules.absoluteUnit))
        (.number numeral.value.numeral.text rules.unit)
  /-- Both are written the same, and no pass changes them. -/
  | rest {measurement : Measurement} {token : Token}
      (written : measurement.css = token.text)
      (measurementRests : rules.convertMeasurement measurement = measurement)
      (tokenRests : rules.convertedToken token = token) :
      Stage rules measurement token

theorem Stage.css_eq
    {measurement : Measurement}
    {token : Token}
    (stage : Stage rules measurement token) :
    measurement.css = token.text := by
  cases stage with
  | read numeral unit finite => exact Measurement.css_ofNumeral numeral unit
  | relabelled numeral finite other =>
      have absolute : Measurement.unitOf rules.absoluteUnit = some rules.absoluteUnit :=
        rules.unitOf_of_named (Or.inr rfl)
      refine (Measurement.css_of_unit_ne fun same => other ?_).trans ?_
      · exact Option.some.inj (absolute.symm.trans same.symm)
      · rw [Binary64.cssText_eq]
        rfl
  | rest written => exact written

/-- The text of a converted numeral is that of its converted token. -/
theorem css_convertMeasurement_ofNumeral (numeral : Numeral) (unit : Text) :
    (rules.convertMeasurement (.ofNumeral numeral unit)).css =
      (rules.convertedToken (.number numeral.text unit)).text := by
  rw [← convertedText_numeral, text_convertedToken]
  rintro _ _ ⟨rfl, rfl⟩
  exact ⟨numeral, rfl⟩

include product apart in
/-- One pass takes both to the same stage. -/
theorem Stage.step
    {measurement : Measurement}
    {token : Token}
    (stage : Stage rules measurement token) :
    Stage rules (rules.convertMeasurement measurement) (rules.convertedToken token) := by
  cases stage with
  | read numeral unit finite =>
      have written := rules.css_convertMeasurement_ofNumeral numeral unit
      by_cases scaled : unit = rules.unit
      · subst scaled
        exact .rest written
          (convertMeasurement_convertMeasurement product apart (rules.unitOf_of_named (Or.inl rfl)))
          (convertedToken_scale product apart numeral)
      · by_cases absolute : unit = rules.absoluteUnit
        · subst absolute
          have relabel :
              rules.eligibility? (Measurement.ofNumeral numeral rules.absoluteUnit).unit =
                some .relabel := by
            have unit : (Measurement.ofNumeral numeral rules.absoluteUnit).unit =
                some rules.absoluteUnit := rules.unitOf_of_named (Or.inr rfl)
            simp [eligibility?, unit, scaled]
          rw [convertedToken_relabel scaled, convertMeasurement, relabel]
          exact .relabelled numeral finite scaled
        · have other : ¬(unit = rules.unit ∨ unit = rules.absoluteUnit) :=
            not_or.mpr ⟨scaled, absolute⟩
          have ineligible : rules.eligibility? (Measurement.ofNumeral numeral unit).unit = none :=
            (rules.eligibility?_unitOf_eq_none_iff unit).mpr other
          have kept := rules.convertMeasurement_of_eligibility?_eq_none ineligible
          have tokenKept := rules.convertedToken_of_other numeral other
          rw [kept, tokenKept] at written ⊢
          exact .rest written kept tokenKept
  | relabelled numeral finite other =>
      refine .rest ?_ (convertMeasurement_convertMeasurement product apart rfl)
        (convertedToken_scale product apart _)
      rw [css_relabelled apart finite other, css_convertMeasurement_ofNumeral]
  | rest written measurementRests tokenRests =>
      rw [measurementRests, tokenRests]
      exact .rest written measurementRests tokenRests

include product apart in
theorem Stage.iterate
    {measurement : Measurement}
    {token : Token}
    (stage : Stage rules measurement token)
    (passes : Nat) :
    Stage rules (rules.convertMeasurement^[passes] measurement)
      (rules.convertedToken^[passes] token) := by
  induction passes generalizing measurement token with
  | zero => exact stage
  | succ passes inductionHypothesis => exact inductionHypothesis (stage.step product apart)

end

/-! ## Passes over trees and texts -/

theorem pieces_iterate (passes : Nat) (value : Value) :
    ((fun value => (rules.convertValue value).1)^[passes] value).pieces =
      value.pieces.map (Piece.mapNumber rules.convertMeasurement^[passes]) := by
  induction passes generalizing value with
  | zero =>
      have same : Piece.mapNumber rules.convertMeasurement^[0] = id := by
        funext piece
        cases piece <;> rfl
      rw [same, List.map_id]
      rfl
  | succ passes inductionHypothesis =>
      have once : Piece.mapNumber rules.convertMeasurement^[passes] ∘
          Piece.mapNumber rules.convertMeasurement =
            Piece.mapNumber rules.convertMeasurement^[passes + 1] := by
        funext piece
        cases piece <;> rfl
      rw [Function.iterate_succ_apply, inductionHypothesis, pieces_convertValue, List.map_map, once]

/-- The tokens after some passes over a text are those of the text after as many passes. -/
theorem HasPlainUnits.scan_iterate
    (plain : rules.HasPlainUnits)
    {source : Text}
    (delimited : Delimited (Token.scan source))
    (passes : Nat) :
    Token.scan (rules.convertText^[passes] source) =
      (Token.scan source).map rules.convertedToken^[passes] := by
  induction passes generalizing source with
  | zero => simp
  | succ passes inductionHypothesis =>
      have once := plain.scan_convertText delimited
      have still : Delimited (Token.scan (rules.convertText source)) := by
        rw [once]
        exact delimited_map delimited
      rw [Function.iterate_succ_apply, inductionHypothesis still, once, List.map_map,
        Function.iterate_succ]

section

variable
  (product : rules.minUnitSize.isZero = true ∨
    (rules.minUnitSize.mul rules.minScaleFactor).isZero = false)
  (apart : ¬(rules.riUnit = rules.unit ∨ rules.riUnit = rules.absoluteUnit))

include product apart

/-- A scanned token is written the same after passes over its measurement as after passes
over itself. -/
theorem flatMap_css_iterate
    {token : Token}
    (reads : token.ReadsNumeral)
    (finite : ∀ measurement, token.measurement? = some measurement →
      measurement.value.isFinite = true)
    (passes : Nat) :
    (token.pieces.map (Piece.mapNumber rules.convertMeasurement^[passes])).flatMap Piece.css =
      (rules.convertedToken^[passes] token).text := by
  rw [reads.pieces_eq]
  cases read : token.measurement? with
  | some measurement =>
      obtain ⟨numeral, unit, rfl, rfl⟩ := reads.measurement?_eq_some read
      have start : Stage rules (.ofNumeral numeral unit) (.number numeral.text unit) :=
        .read numeral unit (finite _ read)
      simp [Piece.mapNumber, Piece.css, (start.iterate product apart passes).css_eq]
  | none =>
      have other := rules.convertedToken_of_isNumber_eq_false (reads.isNumber_eq_false read)
      rw [Function.iterate_fixed other]
      simp

/-- Passes over the tree of a text agree with passes over the text. -/
theorem css_iterate
    (plain : rules.HasPlainUnits)
    {source : Text}
    (finite : ∀ measurement ∈ (Value.parse source).numbers, measurement.value.isFinite = true)
    (delimited : Delimited (Token.scan source))
    (passes : Nat) :
    ((fun value => (rules.convertValue value).1)^[passes] (Value.parse source)).css =
      rules.convertText^[passes] source := by
  have each : ∀ token ∈ Token.scan source,
      (token.pieces.map (Piece.mapNumber rules.convertMeasurement^[passes])).flatMap Piece.css =
        (rules.convertedToken^[passes] token).text := by
    intro token scanned
    apply flatMap_css_iterate product apart (Token.readsNumeral_of_mem_scan token scanned)
    intro measurement read
    apply finite
    rw [Value.numbers_parse]
    exact List.mem_filterMap.mpr ⟨token, scanned, read⟩
  rw [Value.css_eq_pieces, pieces_iterate, Value.pieces_parse, List.map_flatMap,
    List.flatMap_assoc, List.flatMap_def, List.map_congr_left each, ← List.flatMap_def,
    ← Token.concat_scan (rules.convertText^[passes] source), plain.scan_iterate delimited,
    Token.concat, List.flatMap_map]

end

/-- In-memory passes agree with textual passes. By the default rules, converting one tree
some number of times and then writing it gives the text that as many conversions of the
text give, each of the output of the one before. This holds for every value in which all
numbers are finite and none comes directly after a token that it may join. -/
theorem css_iterate_convertValue
    (passes : Nat)
    (source : Text)
    (finite : ∀ measurement ∈ (Value.parse source).numbers, measurement.value.isFinite = true)
    (delimited : Delimited (Token.scan source)) :
    ((fun value => (default.convertValue value).1)^[passes] (Value.parse source)).css =
      default.convertText^[passes] source := by
  have product : (default.minUnitSize.mul default.minScaleFactor).isZero = false := by
    decide +kernel
  have apart : ¬(default.riUnit = default.unit ∨ default.riUnit = default.absoluteUnit) := by
    decide
  exact css_iterate (Or.inr product) apart hasPlainUnits_default finite delimited passes

/-- A number that is relabelled and then scaled, a zero that loses its sign on the way, and
one that is held. -/
theorem css_iterate_convertValue_twice :
    (∀ measurement ∈ (Value.parse "36apx,-0apx,1.2px".toList).numbers,
        measurement.value.isFinite = true) ∧
      Delimited (Token.scan "36apx,-0apx,1.2px".toList) ∧
      ((fun value => (default.convertValue value).1)^[2] (Value.parse "36apx,-0apx,1.2px".toList)).css =
        default.convertText (default.convertText "36apx,-0apx,1.2px".toList) := by
  have finite : ∀ measurement ∈ (Value.parse "36apx,-0apx,1.2px".toList).numbers,
      measurement.value.isFinite = true := by
    decide +kernel
  have scanned : Token.scan "36apx,-0apx,1.2px".toList =
      [.number "36".toList "apx".toList, .comma, .number "-0".toList "apx".toList, .comma,
        .number "1.2".toList "px".toList] := by
    decide +kernel
  have delimited : Delimited (Token.scan "36apx,-0apx,1.2px".toList) := by
    rw [scanned]
    simp [Delimited, Token.joinsNumber, Token.isNumber]
  exact ⟨finite, delimited, css_iterate_convertValue 2 _ finite delimited⟩

end Rules

end CssRescale
