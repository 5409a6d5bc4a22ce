import CssRescale.Proofs.Convert.Size
import CssRescale.Proofs.Token.Replace

/-!
Contract: the tokens that conversion writes.

Owns:
- `Rules.convertedToken`, the token whose text conversion gives a token;
- rules whose units are plain identifiers, for which every converted token may
  stand in the place of the token it was converted from;
- the tokens of a converted text without numbers that come directly after a
  token which they may join.
-/

set_option autoImplicit false

namespace CssRescale

open Text (headIs startsWithDigit)
open Token (IsPlainUnit Replaces Delimited)

namespace Rules

variable (rules : Rules)

/-! ## Converted tokens -/

/-- A token after conversion: a number that was modified is written anew, with its new unit. -/
def convertedToken : Token → Token
  | .number literal unit =>
      match Measurement.read? literal unit with
      | some measurement =>
          let converted := rules.convertMeasurement measurement
          if converted.isModified then .number converted.value.cssText (converted.unit.getD [])
          else .number literal unit
      | none => .number literal unit
  | token => token

theorem convertedToken_numeral (numeral : Numeral) (unit : Text) :
    rules.convertedToken (.number numeral.text unit) =
      if (rules.convertMeasurement (.ofNumeral numeral unit)).isModified then
        .number (rules.convertMeasurement (.ofNumeral numeral unit)).value.numeral.text
          ((rules.convertMeasurement (.ofNumeral numeral unit)).unit.getD [])
      else
        .number numeral.text unit := by
  simp only [convertedToken, Measurement.read?_numeral, Binary64.cssText_eq]

theorem convertedToken_of_isNumber_eq_false
    {token : Token}
    (noNumber : token.isNumber = false) :
    rules.convertedToken token = token := by
  cases token with
  | number => cases noNumber
  | _ => rfl

theorem convertedToken_cases (token : Token) :
    rules.convertedToken token = token ∨
      ∃ literal unit newLiteral newUnit,
        token = .number literal unit ∧ rules.convertedToken token = .number newLiteral newUnit := by
  cases token with
  | number literal unit =>
      refine Or.inr ⟨literal, unit, ?_⟩
      simp only [convertedToken, true_and]
      split
      · split
        · exact ⟨_, _, rfl⟩
        · exact ⟨_, _, rfl⟩
      · exact ⟨_, _, rfl⟩
  | _ => exact Or.inl rfl

@[simp]
theorem isNumber_convertedToken (token : Token) :
    (rules.convertedToken token).isNumber = token.isNumber := by
  rcases rules.convertedToken_cases token with same | ⟨_, _, _, _, rfl, converted⟩
  · rw [same]
  · rw [converted]
    rfl

@[simp]
theorem joinsNumber_convertedToken (token : Token) :
    (rules.convertedToken token).joinsNumber = token.joinsNumber := by
  rcases rules.convertedToken_cases token with same | ⟨_, _, _, _, rfl, converted⟩
  · rw [same]
  · rw [converted]
    rfl

theorem text_convertedToken {token : Token} (reads : token.ReadsNumeral) :
    (rules.convertedToken token).text = rules.convertedText token := by
  cases token with
  | number literal unit =>
      obtain ⟨numeral, rfl⟩ := reads literal unit rfl
      rw [convertedText_numeral, convertedToken_numeral, Measurement.css]
      split
      next => rw [Binary64.cssText_eq]; rfl
      next => exact (rules.source_convertMeasurement (.ofNumeral numeral unit)).symm
  | _ => rfl

theorem convertText_eq_concat (source : Text) :
    rules.convertText source = Token.concat ((Token.scan source).map rules.convertedToken) := by
  have each : ∀ token ∈ Token.scan source,
      (rules.convertedToken token).text = rules.convertedText token := by
    intro token scanned
    exact rules.text_convertedToken (Token.readsNumeral_of_mem_scan token scanned)
  rw [convertText_eq_css, css_convertValue, Token.concat, List.flatMap_map, List.flatMap_def,
    List.flatMap_def, List.map_congr_left each]

theorem convertedToken_of_other
    {unit : Text}
    (numeral : Numeral)
    (other : ¬(unit = rules.unit ∨ unit = rules.absoluteUnit)) :
    rules.convertedToken (.number numeral.text unit) = .number numeral.text unit := by
  have ineligible : rules.eligibility? (Measurement.ofNumeral numeral unit).unit = none :=
    (rules.eligibility?_unitOf_eq_none_iff unit).mpr other
  rw [convertedToken_numeral, rules.convertMeasurement_of_eligibility?_eq_none ineligible,
    Measurement.isModified_ofNumeral]
  rfl

/-! ## Modified numbers -/

/-- A number that was modified had one of the units that the rules convert, and got
one of those that they write. -/
theorem units_of_isModified
    {numeral : Numeral}
    {unit : Text}
    (modified : (rules.convertMeasurement (.ofNumeral numeral unit)).isModified = true) :
    (unit = rules.unit ∨ unit = rules.absoluteUnit) ∧
      ((rules.convertMeasurement (.ofNumeral numeral unit)).unit = some rules.riUnit ∨
        (rules.convertMeasurement (.ofNumeral numeral unit)).unit = some rules.unit) := by
  by_cases named : unit = rules.unit ∨ unit = rules.absoluteUnit
  · have eligible : rules.eligibility? (Measurement.ofNumeral numeral unit).unit ≠ none := by
      intro none
      exact (rules.eligibility?_unitOf_eq_none_iff unit).mp none named
    exact ⟨named, rules.unit_convertMeasurement eligible⟩
  · have ineligible : rules.eligibility? (Measurement.ofNumeral numeral unit).unit = none :=
      (rules.eligibility?_unitOf_eq_none_iff unit).mpr named
    rw [rules.convertMeasurement_of_eligibility?_eq_none ineligible,
      Measurement.isModified_ofNumeral] at modified
    cases modified

/-- A converted number is written with a digit in front, or with the minus sign of
its source. -/
theorem start_convertMeasurement (numeral : Numeral) (unit : Text) :
    startsWithDigit (rules.convertMeasurement (.ofNumeral numeral unit)).value.numeral.text = true ∨
      headIs (· == '-') (rules.convertMeasurement (.ofNumeral numeral unit)).value.numeral.text =
          true ∧
        headIs (· == '-') numeral.text = true := by
  obtain ⟨_, sign⟩ := rules.value_convertNumeral numeral unit
  rcases Binary64.numeral_start _ with digit | ⟨minus, negative, nonzero⟩
  · exact Or.inl digit
  · exact Or.inr ⟨minus, Numeral.headIs_minus (sign negative nonzero)⟩

/-! ## Plain units -/

/-- All units of the rules are plain identifiers. -/
structure HasPlainUnits : Prop where
  riUnit : IsPlainUnit rules.riUnit
  unit : IsPlainUnit rules.unit
  absoluteUnit : IsPlainUnit rules.absoluteUnit

variable {rules}

theorem HasPlainUnits.of_converted
    {unit : Text}
    (plain : rules.HasPlainUnits)
    (converted : unit = rules.unit ∨ unit = rules.absoluteUnit) :
    IsPlainUnit unit := by
  rcases converted with rfl | rfl
  · exact plain.unit
  · exact plain.absoluteUnit

theorem HasPlainUnits.of_written
    {unit : Option Text}
    (plain : rules.HasPlainUnits)
    (written : unit = some rules.riUnit ∨ unit = some rules.unit) :
    IsPlainUnit (unit.getD []) := by
  rcases written with rfl | rfl
  · exact plain.riUnit
  · exact plain.unit

/-- Where all units are plain, a converted token may stand in the place of its source. -/
theorem HasPlainUnits.replaces
    (plain : rules.HasPlainUnits)
    {token : Token}
    (reads : token.ReadsNumeral) :
    Replaces token (rules.convertedToken token) := by
  cases token with
  | number literal unit =>
      obtain ⟨numeral, rfl⟩ := reads literal unit rfl
      rw [convertedToken_numeral]
      split
      next modified =>
        obtain ⟨converted, written⟩ := rules.units_of_isModified modified
        have before := plain.of_converted converted
        exact .number before.ne_nil before.ne_percent (plain.of_written written)
          (rules.start_convertMeasurement numeral unit)
      next => exact .same
  | _ => exact .same

theorem hasPlainUnits_default : default.HasPlainUnits where
  riUnit := ⟨rfl, List.all_eq_true.mp rfl, rfl⟩
  unit := ⟨rfl, List.all_eq_true.mp rfl, rfl⟩
  absoluteUnit := ⟨rfl, List.all_eq_true.mp rfl, rfl⟩

/-- Conversion keeps which numbers come directly after which tokens. -/
theorem delimited_map
    {tokens : List Token}
    (delimited : Delimited tokens) :
    Delimited (tokens.map rules.convertedToken) := by
  rw [Delimited, List.isChain_map]
  simp only [isNumber_convertedToken, joinsNumber_convertedToken]
  exact delimited

/-- The tokens of a converted text are the converted tokens, if no number comes
directly after a token that it may join. -/
theorem HasPlainUnits.scan_convertText
    (plain : rules.HasPlainUnits)
    {source : Text}
    (delimited : Delimited (Token.scan source)) :
    Token.scan (rules.convertText source) = (Token.scan source).map rules.convertedToken := by
  rw [convertText_eq_concat]
  exact Token.scanFrom_replaced
    (fun token scanned => plain.replaces (Token.readsNumeral_of_mem_scan token scanned)) delimited

end Rules

end CssRescale
