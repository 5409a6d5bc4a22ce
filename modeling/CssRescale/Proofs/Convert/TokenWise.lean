import CssRescale.Proofs.Value.RoundTrip

/-!
Contract: conversion of a text is conversion of each of its tokens.

A text goes through tokens, a tree, a walk over the tree and its written form,
unless nothing was rewritten. All of this comes to one function of the token,
applied to each token in its place.

Owns:
- `Rules.convertedText`, the text that conversion gives a token;
- the numbers of a converted tree and the count of those rewritten;
- the collapse of the conversion of a text to its tokens.
-/

set_option autoImplicit false

namespace CssRescale

/-! ## Walks that convert -/

theorem Piece.measurement?_mapNumber (change : Measurement → Measurement) (piece : Piece) :
    (piece.mapNumber change).measurement? = piece.measurement?.map change := by
  cases piece <;> rfl

namespace Rules

variable (rules : Rules)

/-- A converting walk changes each number and counts those rewritten. -/
theorem walk_visitor (pieces : List Piece) (count : Nat) :
    Piece.walk rules.visitor pieces count =
      (pieces.map (Piece.mapNumber rules.convertMeasurement),
        count + (pieces.filterMap Piece.measurement?).countP rules.isRewritten) := by
  induction pieces generalizing count with
  | nil => rfl
  | cons piece rest inductionHypothesis =>
      cases piece with
      | char c =>
          simp only [Piece.walk, inductionHypothesis, List.map_cons, Piece.mapNumber,
            List.filterMap_cons, Piece.measurement?]
      | number measurement =>
          have added : (if rules.isRewritten measurement = true then count + 1 else count) =
              count + if rules.isRewritten measurement = true then 1 else 0 := by
            split <;> rfl
          simp only [Piece.walk, visitor, List.map_cons, Piece.mapNumber, List.filterMap_cons,
            Piece.measurement?, List.countP_cons]
          show (_ :: (Piece.walk rules.visitor rest _).1, (Piece.walk rules.visitor rest _).2) = _
          rw [inductionHypothesis, added]
          simp only [Prod.mk.injEq, true_and]
          omega

theorem convertValue_pieces (value : Value) :
    ((rules.convertValue value).1.pieces, (rules.convertValue value).2) =
      (value.pieces.map (Piece.mapNumber rules.convertMeasurement),
        value.numbers.countP rules.isRewritten) := by
  have descends : ∀ name state, rules.visitor.function name state = (true, state) := by
    intro _ _
    exact rfl
  rw [convertValue, Value.visit_pieces descends, walk_visitor, Value.numbers_eq_pieces,
    Nat.zero_add]

theorem pieces_convertValue (value : Value) :
    (rules.convertValue value).1.pieces =
      value.pieces.map (Piece.mapNumber rules.convertMeasurement) :=
  congrArg Prod.fst (rules.convertValue_pieces value)

theorem numbers_convertValue (value : Value) :
    (rules.convertValue value).1.numbers = value.numbers.map rules.convertMeasurement := by
  rw [Value.numbers_eq_pieces, Value.numbers_eq_pieces, pieces_convertValue, List.filterMap_map,
    List.map_filterMap]
  simp only [Function.comp_def, Piece.measurement?_mapNumber]

theorem count_convertValue (value : Value) :
    (rules.convertValue value).2 = value.numbers.countP rules.isRewritten :=
  congrArg Prod.snd (rules.convertValue_pieces value)

/-! ## Measurements as read -/

/-- Conversion keeps what a measurement was read from. -/
theorem read_convertMeasurement (measurement : Measurement) :
    (rules.convertMeasurement measurement).sourceValue = measurement.sourceValue ∧
      (rules.convertMeasurement measurement).literal = measurement.literal ∧
      (rules.convertMeasurement measurement).suffix = measurement.suffix := by
  unfold convertMeasurement
  split
  · unfold scaleMeasurement
    split <;> exact ⟨rfl, rfl, rfl⟩
  · exact ⟨rfl, rfl, rfl⟩
  · exact ⟨rfl, rfl, rfl⟩

theorem source_convertMeasurement (measurement : Measurement) :
    (rules.convertMeasurement measurement).source = measurement.source := by
  obtain ⟨-, literal, suffix⟩ := rules.read_convertMeasurement measurement
  rw [Measurement.source, literal, suffix, Measurement.source]

theorem convertMeasurement_of_eligibility?_eq_none
    {measurement : Measurement}
    (ineligible : rules.eligibility? measurement.unit = none) :
    rules.convertMeasurement measurement = measurement := by
  simp only [convertMeasurement, ineligible]

/-- What was just read counts as rewritten if and only if conversion modified it. -/
theorem isRewritten_ofNumeral (numeral : Numeral) (suffix : Text) :
    rules.isRewritten (.ofNumeral numeral suffix) =
      (rules.convertMeasurement (.ofNumeral numeral suffix)).isModified := by
  unfold isRewritten
  cases eligible : rules.eligibility? (Measurement.ofNumeral numeral suffix).unit with
  | some _ => rfl
  | none =>
      rw [rules.convertMeasurement_of_eligibility?_eq_none eligible,
        Measurement.isModified_ofNumeral]
      rfl

theorem unitOf_of_named
    {suffix : Text}
    (named : suffix = rules.unit ∨ suffix = rules.absoluteUnit) :
    Measurement.unitOf suffix = some suffix := by
  have nonempty : suffix ≠ [] := by
    rcases named with rfl | rfl
    · exact rules.unit_ne_nil
    · exact rules.absoluteUnit_ne_nil
  simp [Measurement.unitOf, nonempty]

/-- The eligible units are those that the rules name. -/
theorem eligibility?_unitOf_eq_none_iff (suffix : Text) :
    rules.eligibility? (Measurement.unitOf suffix) = none ↔
      ¬(suffix = rules.unit ∨ suffix = rules.absoluteUnit) := by
  by_cases named : suffix = rules.unit ∨ suffix = rules.absoluteUnit
  · rw [rules.unitOf_of_named named]
    rcases named with rfl | rfl
    · simp [eligibility?]
    · unfold eligibility?
      split <;> simp
  · have others := not_or.mp named
    unfold eligibility? Measurement.unitOf
    split <;> simp [others]

/-! ## Tokens -/

/-- The text that conversion gives a token: the written form of the converted
measurement where the unit is one that the rules name, and otherwise its own text. -/
def convertedText : Token → Text
  | .number literal unit =>
      if unit = rules.unit ∨ unit = rules.absoluteUnit then
        match Measurement.read? literal unit with
        | some measurement => (rules.convertMeasurement measurement).css
        | none => literal ++ unit
      else
        literal ++ unit
  | token => token.text

/-- A number is written as its converted measurement, whatever its unit. -/
theorem convertedText_numeral (numeral : Numeral) (unit : Text) :
    rules.convertedText (.number numeral.text unit) =
      (rules.convertMeasurement (.ofNumeral numeral unit)).css := by
  rw [convertedText, Measurement.read?_numeral]
  split
  next => rfl
  next other =>
    have ineligible : rules.eligibility? (Measurement.ofNumeral numeral unit).unit = none :=
      (rules.eligibility?_unitOf_eq_none_iff unit).mpr other
    rw [rules.convertMeasurement_of_eligibility?_eq_none ineligible, Measurement.css_ofNumeral]

theorem convertedText_of_measurement?_eq_none
    {token : Token}
    (reads : token.ReadsNumeral)
    (other : token.measurement? = none) :
    rules.convertedText token = token.text := by
  cases token with
  | number literal unit =>
      obtain ⟨numeral, rfl⟩ := reads literal unit rfl
      rw [Token.measurement?, Measurement.read?_numeral] at other
      cases other
  | _ => rfl

/-- The converted pieces of a scanned token are written as its converted text. -/
theorem flatMap_css_convert {token : Token} (reads : token.ReadsNumeral) :
    (token.pieces.map (Piece.mapNumber rules.convertMeasurement)).flatMap Piece.css =
      rules.convertedText token := by
  rw [reads.pieces_eq]
  split
  next measurement read =>
    obtain ⟨numeral, unit, rfl, rfl⟩ := reads.measurement?_eq_some read
    rw [convertedText_numeral]
    simp [Piece.mapNumber, Piece.css]
  next other =>
    rw [rules.convertedText_of_measurement?_eq_none reads other]
    rw [Piece.map_mapNumber_ofText, Piece.flatMap_css_ofText]

end Rules

/-- The numbers among the pieces of tokens are those of the tokens, in order. -/
theorem Token.filterMap_flatMap_pieces
    {tokens : List Token}
    (reads : ∀ token ∈ tokens, token.ReadsNumeral) :
    (tokens.flatMap Token.pieces).filterMap Piece.measurement? =
      tokens.filterMap Token.measurement? := by
  induction tokens with
  | nil => rfl
  | cons token rest inductionHypothesis =>
      have others := inductionHypothesis fun other member => reads other (by simp [member])
      rw [List.flatMap_cons, List.filterMap_append, others, (reads token (by simp)).pieces_eq]
      cases read : token.measurement? with
      | none => simp [read]
      | some measurement => simp [read, Piece.measurement?]

/-- The numbers of a parsed value are those of its tokens, in order. -/
theorem Value.numbers_parse (source : Text) :
    (Value.parse source).numbers = (Token.scan source).filterMap Token.measurement? := by
  rw [Value.numbers_eq_pieces, Value.pieces_parse,
    Token.filterMap_flatMap_pieces Token.readsNumeral_of_mem_scan]

/-! ## Texts -/

namespace Rules

variable (rules : Rules)

/-- The number of a token was rewritten if and only if it counts as rewritten. -/
theorem count_parse (source : Text) :
    (rules.convertValue (Value.parse source)).2 =
      (rules.convertValue (Value.parse source)).1.numbers.countP Measurement.isModified := by
  rw [count_convertValue, numbers_convertValue, List.countP_map, Value.numbers_parse]
  apply List.countP_congr
  intro measurement member
  obtain ⟨token, scanned, read⟩ := List.mem_filterMap.mp member
  obtain ⟨numeral, unit, rfl, rfl⟩ :=
    (Token.readsNumeral_of_mem_scan token scanned).measurement?_eq_some read
  rw [isRewritten_ofNumeral]
  rfl

theorem css_convertValue (source : Text) :
    (rules.convertValue (Value.parse source)).1.css =
      (Token.scan source).flatMap rules.convertedText := by
  have each : ∀ token ∈ Token.scan source,
      (token.pieces.map (Piece.mapNumber rules.convertMeasurement)).flatMap Piece.css =
        rules.convertedText token := by
    intro token scanned
    exact rules.flatMap_css_convert (Token.readsNumeral_of_mem_scan token scanned)
  rw [Value.css_eq_pieces, pieces_convertValue, Value.pieces_parse, List.map_flatMap,
    List.flatMap_assoc, List.flatMap_def, List.map_congr_left each, ← List.flatMap_def]

theorem convertedText_of_count_eq_zero
    {source : Text}
    (none : (rules.convertValue (Value.parse source)).2 = 0) :
    ∀ token ∈ Token.scan source, rules.convertedText token = token.text := by
  intro token scanned
  have reads := Token.readsNumeral_of_mem_scan token scanned
  cases read : token.measurement? with
  | none => exact rules.convertedText_of_measurement?_eq_none reads read
  | some measurement =>
      have member : measurement ∈ (Value.parse source).numbers := by
        rw [Value.numbers_parse]
        exact List.mem_filterMap.mpr ⟨token, scanned, read⟩
      obtain ⟨numeral, unit, rfl, rfl⟩ := reads.measurement?_eq_some read
      rw [count_convertValue, List.countP_eq_zero] at none
      have unmodified := none _ member
      rw [isRewritten_ofNumeral, Bool.not_eq_true] at unmodified
      rw [convertedText_numeral, Measurement.css_of_isModified_eq_false unmodified]
      exact rules.source_convertMeasurement (.ofNumeral numeral unit)

/-- The text of a converted tree is the converted text, also where the source was kept. -/
theorem convertText_eq_css (source : Text) :
    rules.convertText source = (rules.convertValue (Value.parse source)).1.css := by
  unfold convertText convertParsed
  show (if (rules.convertValue (Value.parse source)).2 = 0 then source
    else (rules.convertValue (Value.parse source)).1.css) = _
  split
  next none =>
    rw [css_convertValue, List.flatMap_def,
      List.map_congr_left (rules.convertedText_of_count_eq_zero none), ← List.flatMap_def]
    exact (Token.concat_scan source).symm
  next => rfl

/-- Conversion of a text converts each token and keeps everything else.

Every number token reads as a measurement, and these in order are the numbers of
the tree. The converted text is that of the converted tree, also where the source
was returned because nothing was rewritten, and it is the converted texts of the
tokens one after another. The count is that of the numbers that differ from their
source after conversion. -/
theorem convertText_tokenwise (source : Text) :
    (∀ literal unit, .number literal unit ∈ Token.scan source →
        (Measurement.read? literal unit).isSome = true) ∧
      rules.convertText source = (Token.scan source).flatMap rules.convertedText ∧
      (rules.convertValue (Value.parse source)).1.css = rules.convertText source ∧
      (rules.convertValue (Value.parse source)).1.numbers =
        ((Token.scan source).filterMap Token.measurement?).map rules.convertMeasurement ∧
      (rules.convertValue (Value.parse source)).2 =
        (rules.convertValue (Value.parse source)).1.numbers.countP Measurement.isModified := by
  refine ⟨?_, ?_, ?_, ?_, rules.count_parse source⟩
  · intro literal unit scanned
    obtain ⟨numeral, rfl⟩ := Token.readsNumeral_of_mem_scanFrom _ scanned literal unit rfl
    rw [Measurement.read?_numeral]
    rfl
  · rw [convertText_eq_css, css_convertValue]
  · exact (rules.convertText_eq_css source).symm
  · rw [numbers_convertValue, Value.numbers_parse]

end Rules

end CssRescale
