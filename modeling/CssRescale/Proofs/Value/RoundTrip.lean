import CssRescale.Proofs.Binary64.Equality
import CssRescale.Proofs.Token.Run
import CssRescale.Proofs.Value.Build

/-!
Contract: a parsed value is written as the text it was parsed from.

Owns:
- the measurement that a numeral reads as, which differs from its source in nothing;
- the numbers of the tokens of a text, one for each number token;
- the round trip from text to tree and back, for every text.
-/

set_option autoImplicit false

namespace CssRescale

/-! ## Measurements as read -/

/-- The measurement that a numeral and a unit read as. -/
def Measurement.ofNumeral (numeral : Numeral) (suffix : Text) : Measurement :=
  ⟨numeral.value, unitOf suffix, numeral.text, suffix, numeral.value⟩

theorem Measurement.read?_numeral (numeral : Numeral) (suffix : Text) :
    Measurement.read? numeral.text suffix = some (.ofNumeral numeral suffix) := by
  rw [Measurement.read?, numeral.read?_text]
  rfl

/-- What was just read differs from its source in nothing. -/
theorem Measurement.isModified_ofNumeral (numeral : Numeral) (suffix : Text) :
    (Measurement.ofNumeral numeral suffix).isModified = false := by
  have same := Binary64.equal_self numeral.isNan_value
  simp [Measurement.isModified, Measurement.ofNumeral, Measurement.sourceUnit, same]

/-- What differs from its source in nothing is written as its source. -/
theorem Measurement.css_of_isModified_eq_false
    {measurement : Measurement}
    (unmodified : measurement.isModified = false) :
    measurement.css = measurement.source := by
  rw [css, unmodified]
  rfl

theorem Measurement.css_ofNumeral (numeral : Numeral) (suffix : Text) :
    (Measurement.ofNumeral numeral suffix).css = numeral.text ++ suffix := by
  rw [css_of_isModified_eq_false (isModified_ofNumeral numeral suffix)]
  rfl

/-- A measurement in another unit than it was read with is written anew. -/
theorem Measurement.css_of_unit_ne
    {measurement : Measurement}
    (other : measurement.unit ≠ measurement.sourceUnit) :
    measurement.css = measurement.value.cssText ++ measurement.unit.getD [] := by
  have modified : measurement.isModified = true := by
    rw [isModified, bne_iff_ne.mpr other, Bool.or_true]
  rw [css, if_pos modified]

namespace Token

/-! ## The pieces of scanned tokens -/

/-- The measurement that a number token reads as. -/
def measurement? : Token → Option Measurement
  | number literal unit => Measurement.read? literal unit
  | _ => none

theorem pieces_numeral (numeral : Numeral) (unit : Text) :
    (number numeral.text unit).pieces = [.number (.ofNumeral numeral unit)] := by
  simp only [pieces, Builder.numberNode, Measurement.read?_numeral, Node.pieces]

/-- A scanned token is its measurement if it is a number, and otherwise its characters. -/
theorem ReadsNumeral.pieces_eq {token : Token} (reads : token.ReadsNumeral) :
    token.pieces =
      match token.measurement? with
      | some measurement => [.number measurement]
      | none => Piece.ofText token.text := by
  cases token with
  | number literal unit =>
      obtain ⟨numeral, rfl⟩ := reads literal unit rfl
      simp only [pieces_numeral, measurement?, Measurement.read?_numeral]
  | string raw terminated => rfl
  | comment raw terminated => rfl
  | word raw => rfl
  | operator raw => rfl
  | openParen => rfl
  | closeParen => rfl
  | comma => rfl
  | space raw => rfl

theorem ReadsNumeral.measurement?_eq_some
    {token : Token}
    {measurement : Measurement}
    (reads : token.ReadsNumeral)
    (read : token.measurement? = some measurement) :
    ∃ numeral unit,
      token = number (Numeral.text numeral) unit ∧ measurement = .ofNumeral numeral unit := by
  cases token with
  | number literal unit =>
      obtain ⟨numeral, rfl⟩ := reads literal unit rfl
      rw [measurement?, Measurement.read?_numeral, Option.some.injEq] at read
      exact ⟨numeral, unit, rfl, read.symm⟩
  | _ => simp [measurement?] at read

theorem ReadsNumeral.isNumber_eq_false
    {token : Token}
    (reads : token.ReadsNumeral)
    (other : token.measurement? = none) :
    token.isNumber = false := by
  cases token with
  | number literal unit =>
      obtain ⟨numeral, rfl⟩ := reads literal unit rfl
      rw [measurement?, Measurement.read?_numeral] at other
      cases other
  | _ => rfl

theorem ReadsNumeral.flatMap_css_pieces {token : Token} (reads : token.ReadsNumeral) :
    token.pieces.flatMap Piece.css = token.text := by
  rw [reads.pieces_eq]
  split
  next measurement read =>
    obtain ⟨numeral, unit, rfl, rfl⟩ := reads.measurement?_eq_some read
    simp [Piece.css, Measurement.css_ofNumeral, text]
  next => exact Piece.flatMap_css_ofText token.text

end Token

/-! ## The round trip -/

/-- Writing the tree of a text, whether or not it is well formed, gives the text back. -/
theorem Value.css_parse (source : Text) : (Value.parse source).css = source := by
  have each : ∀ token ∈ Token.scan source, token.pieces.flatMap Piece.css = token.text := by
    intro token member
    exact (Token.readsNumeral_of_mem_scan token member).flatMap_css_pieces
  calc
    (Value.parse source).css
        = (Token.scan source).flatMap fun token => token.pieces.flatMap Piece.css := by
      rw [Value.css_eq_pieces, Value.pieces_parse, List.flatMap_assoc]
    _ = (Token.scan source).flatMap Token.text := by
      rw [List.flatMap_def, List.flatMap_def, List.map_congr_left each]
    _ = source := Token.concat_scan source

end CssRescale
