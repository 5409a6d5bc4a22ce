import CssRescale.Proofs.Convert.Tokens
import CssRescale.Proofs.Token.Neighbors

/-!
Contract: which texts keep their structure under conversion.

A text keeps its structure if its converted text has tokens of the same kinds in
the same order, which differ in numbers only, and if these numbers read as those
of the converted tree. Not every text does: a converted number starts with a digit
where its source had a sign or a point in front, and the token before it may take
in that digit.

Owns:
- the meaning of keeping the structure;
- that by the default rules a text keeps it exactly if no two neighbours among its
  converted tokens fuse;
- a text that does not keep it.
-/

set_option autoImplicit false

namespace CssRescale

open Text (headIs)
open Token (Rewrites Fuses SameValue Delimited)

/-! ## Structure -/

def Token.SameKind : Token → Token → Prop
  | .number _ _, .number _ _ => True
  | token, other => token = other

/-- One unit and one value, where infinities are the largest finite numbers. -/
def Measurement.Agrees (read converted : Measurement) : Prop :=
  read.unit = converted.unit ∧
    Binary64.equal read.value.saturate converted.value.saturate = true

/-- The converted text has tokens of the kinds of the tokens of its source, those
that are no numbers are the same, and its numbers read as those of the converted tree. -/
def Rules.KeepsStructure (rules : Rules) (source : Text) : Prop :=
  List.Forall₂ Token.SameKind (Token.scan source) (Token.scan (rules.convertText source)) ∧
    List.Forall₂ Measurement.Agrees
      ((Token.scan (rules.convertText source)).filterMap Token.measurement?)
      (rules.convertValue (Value.parse source)).1.numbers

theorem Measurement.unitOf_eq_iff (left right : Text) :
    unitOf left = unitOf right ↔ left = right := by
  cases left <;> cases right <;> simp [unitOf]

theorem Token.sameKind_of_isNumber_eq_false
    {token other : Token}
    (noNumber : token.isNumber = false) :
    SameKind token other ↔ token = other := by
  cases token with
  | number => cases noNumber
  | _ => rfl

theorem Token.agrees_of_isNumber_eq_false
    {token other : Token}
    (noNumber : token.isNumber = false) :
    Agrees other token ↔ other = token := by
  constructor
  · intro agrees
    exact agrees.eq_of_other noNumber
  · intro equal
    subst equal
    cases other with
    | number => cases noNumber
    | _ => rfl

theorem Token.measurement?_of_isNumber_eq_false
    {token : Token}
    (noNumber : token.isNumber = false) :
    token.measurement? = none := by
  cases token with
  | number => cases noNumber
  | _ => rfl

namespace Rules

variable (rules : Rules)

/-! ## Converted numbers -/

theorem exists_numeral_convertedToken (numeral : Numeral) (unit : Text) :
    ∃ (converted : Numeral) (newUnit : Text),
      rules.convertedToken (.number numeral.text unit) = .number converted.text newUnit ∧
        Measurement.Agrees (.ofNumeral converted newUnit)
          (rules.convertMeasurement (.ofNumeral numeral unit)) := by
  rw [convertedToken_numeral]
  obtain ⟨sourceValue, -, suffix⟩ := rules.read_convertMeasurement (.ofNumeral numeral unit)
  split
  next modified =>
    obtain ⟨_, written⟩ := rules.units_of_isModified modified
    obtain ⟨number, _⟩ := rules.value_convertNumeral numeral unit
    refine ⟨_, _, rfl, ?_, Binary64.equal_value_numeral number⟩
    rcases written with riUnit | unit
    · rw [riUnit]
      simp [Measurement.ofNumeral, Measurement.unitOf, rules.riUnit_ne_nil]
    · rw [unit]
      simp [Measurement.ofNumeral, Measurement.unitOf, rules.unit_ne_nil]
  next unmodified =>
    simp only [Measurement.isModified, Measurement.sourceUnit, sourceValue, suffix,
      Bool.or_eq_true, not_or, Bool.not_eq_true, Bool.not_eq_false', bne_eq_false_iff_eq] at unmodified
    obtain ⟨value, sameUnit⟩ := unmodified
    rw [Binary64.equal_comm] at value
    exact ⟨_, _, rfl, sameUnit.symm, Binary64.equal_saturate value⟩

theorem agrees_convertedToken_iff (numeral other : Numeral) (unit otherUnit : Text) :
    Token.Agrees (.number other.text otherUnit) (rules.convertedToken (.number numeral.text unit)) ↔
      Measurement.Agrees (.ofNumeral other otherUnit)
        (rules.convertMeasurement (.ofNumeral numeral unit)) := by
  obtain ⟨converted, newUnit, written, sameUnit, value⟩ :=
    rules.exists_numeral_convertedToken numeral unit
  rw [written]
  show otherUnit = newUnit ∧ SameValue other.text converted.text ↔
    Measurement.unitOf otherUnit = _ ∧ _
  rw [SameValue.numeral_iff, ← sameUnit]
  show _ ↔ _ = Measurement.unitOf newUnit ∧ _
  rw [Measurement.unitOf_eq_iff, ← Binary64.equal_congr_right value]
  rfl

/-! ## Converted tokens -/

/-- Tokens agree with converted tokens if they are of the kinds of their sources and
their numbers read as the converted measurements. -/
theorem forall₂_agrees_convertedToken_iff
    {tokens others : List Token}
    (reads : ∀ token ∈ tokens, token.ReadsNumeral)
    (readsOthers : ∀ other ∈ others, other.ReadsNumeral) :
    List.Forall₂ Token.Agrees others (tokens.map rules.convertedToken) ↔
      List.Forall₂ Token.SameKind tokens others ∧
        List.Forall₂ Measurement.Agrees (others.filterMap Token.measurement?)
          ((tokens.filterMap Token.measurement?).map rules.convertMeasurement) := by
  induction tokens generalizing others with
  | nil => cases others <;> simp
  | cons token tokens inductionHypothesis =>
      cases others with
      | nil => simp
      | cons other others =>
          have readsRest : ∀ next ∈ tokens, next.ReadsNumeral := by
            intro next member
            exact reads next (List.mem_cons_of_mem token member)
          have readsOtherRest : ∀ next ∈ others, next.ReadsNumeral := by
            intro next member
            exact readsOthers next (List.mem_cons_of_mem other member)
          have rest := inductionHypothesis readsRest readsOtherRest
          have readsToken := reads token List.mem_cons_self
          have readsOther := readsOthers other List.mem_cons_self
          rw [List.map_cons, List.forall₂_cons, List.forall₂_cons, rest]
          cases isNumber : token.isNumber with
          | false =>
              have none := Token.measurement?_of_isNumber_eq_false isNumber
              rw [rules.convertedToken_of_isNumber_eq_false isNumber,
                Token.agrees_of_isNumber_eq_false isNumber,
                Token.sameKind_of_isNumber_eq_false isNumber]
              by_cases same : token = other
              · subst same
                simp [none]
              · simp [same, Ne.symm same]
          | true =>
              cases token with
              | number literal unit =>
                  obtain ⟨numeral, rfl⟩ := readsToken literal unit rfl
                  cases other with
                  | number otherLiteral otherUnit =>
                      obtain ⟨otherNumeral, rfl⟩ := readsOther otherLiteral otherUnit rfl
                      rw [rules.agrees_convertedToken_iff]
                      simp only [Token.SameKind, Token.measurement?, Measurement.read?_numeral,
                        List.filterMap_cons, List.map_cons, List.forall₂_cons, true_and]
                      exact and_left_comm
                  | _ =>
                      refine iff_of_false (fun both => ?_) fun both => ?_
                      · have kinds := both.1.isNumber_eq
                        rw [isNumber_convertedToken] at kinds
                        cases kinds
                      · exact absurd both.1.1 Token.noConfusion
              | _ => cases isNumber

/-! ## Texts -/

variable {rules}

/-- Where the units are plain and no written unit starts like an exponent, the
converted tokens are rewritten ones. -/
theorem HasPlainUnits.rewrites
    (plain : rules.HasPlainUnits)
    (riUnit : headIs isExponentMark rules.riUnit = false)
    (unit : headIs isExponentMark rules.unit = false)
    {token : Token}
    (reads : token.ReadsNumeral) :
    Rewrites token (rules.convertedToken token) := by
  cases token with
  | number literal suffix =>
      obtain ⟨numeral, rfl⟩ := reads literal suffix rfl
      rw [convertedToken_numeral]
      split
      next modified =>
        obtain ⟨converted, written⟩ := rules.units_of_isModified modified
        have before := plain.of_converted converted
        refine .number before.ne_nil before.ne_percent (plain.of_written written) ?_
          (Binary64.exponent?_numeral _) (rules.start_convertMeasurement numeral suffix)
        rcases written with new | new
        · rw [new]
          exact riUnit
        · rw [new]
          exact unit
      next => exact .same
  | _ => exact .same

/-- A text keeps its structure exactly if no two neighbours among its converted
tokens fuse. -/
theorem HasPlainUnits.keepsStructure_iff
    (plain : rules.HasPlainUnits)
    (riUnit : headIs isExponentMark rules.riUnit = false)
    (unit : headIs isExponentMark rules.unit = false)
    (source : Text) :
    rules.KeepsStructure source ↔
      ((Token.scan source).map rules.convertedToken).IsChain fun token next =>
        ¬Fuses token next := by
  have reads : ∀ token ∈ Token.scan source, token.ReadsNumeral := Token.readsNumeral_of_mem_scan
  have readsConverted : ∀ token ∈ Token.scan (rules.convertText source), token.ReadsNumeral :=
    Token.readsNumeral_of_mem_scan
  have agrees := rules.forall₂_agrees_convertedToken_iff reads readsConverted
  have rewrites : ∀ token ∈ Token.scan source, Rewrites token (rules.convertedToken token) := by
    intro token scanned
    exact plain.rewrites riUnit unit (reads token scanned)
  unfold KeepsStructure
  rw [numbers_convertValue, Value.numbers_parse, ← agrees, convertText_eq_concat]
  exact Token.forall₂_agrees_iff_isChain rewrites

/-- Where no number comes directly after a token that it may join, the structure is kept. -/
theorem HasPlainUnits.keepsStructure_of_delimited
    (plain : rules.HasPlainUnits)
    (riUnit : headIs isExponentMark rules.riUnit = false)
    (unit : headIs isExponentMark rules.unit = false)
    {source : Text}
    (delimited : Delimited (Token.scan source)) :
    rules.KeepsStructure source := by
  rw [plain.keepsStructure_iff riUnit unit]
  have converted : Delimited ((Token.scan source).map rules.convertedToken) :=
    delimited_map delimited
  apply converted.imp
  intro token next apart fuses
  have joins := Token.joinsNumber_of_absorbsDigit fuses.1
  rw [apart fuses.2.1] at joins
  cases joins

/-- By the default rules a text keeps its structure exactly if no two neighbours
among its converted tokens fuse: a token that takes in digits stands directly before
no number that starts with a digit, except that a number with a fraction or an
exponent, and without a unit, may take in digits that change no value. -/
theorem keepsStructure_default_iff (source : Text) :
    default.KeepsStructure source ↔
      ((Token.scan source).map default.convertedToken).IsChain fun token next =>
        ¬Fuses token next :=
  hasPlainUnits_default.keepsStructure_iff rfl rfl source

/-- Of two sizes with a plus sign between them the second one becomes a part of the
unit of the first. -/
theorem not_keepsStructure_signed :
    Token.scan "36px+24px".toList =
        [.number "36".toList "px".toList, .number "+24".toList "px".toList] ∧
      Token.scan (default.convertText "36px+24px".toList) =
        [.number "1.5".toList "rem1rem".toList] ∧
      ¬default.KeepsStructure "36px+24px".toList := by
  have before : Token.scan "36px+24px".toList =
      [.number "36".toList "px".toList, .number "+24".toList "px".toList] := by
    decide +kernel
  have after : Token.scan (default.convertText "36px+24px".toList) =
      [.number "1.5".toList "rem1rem".toList] := by
    decide +kernel
  refine ⟨before, after, fun keeps => ?_⟩
  have lengths := keeps.1.length_eq
  rw [before, after] at lengths
  exact absurd lengths (by decide)

end Rules

end CssRescale
