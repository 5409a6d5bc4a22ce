import CssRescale.Proofs.Text.Bytes
import CssRescale.Proofs.Token.Units
import CssRescale.Proofs.Value.RoundTrip

/-!
Contract: every number token of a text is a measurement.

The grammar of literals lies inside the grammar of the decimal reader. So a measurement is
read from every number token, at the byte where its unit starts, and building never makes
a word of one.

Owns: the measurement of a number token, with what the token is made of.
-/

set_option autoImplicit false

namespace CssRescale

open Text (byteLength)

namespace Measurement

theorem unitOf_eq_none_iff (suffix : Text) : unitOf suffix = none ↔ suffix = [] := by
  unfold unitOf
  split
  case isTrue none => exact iff_of_true rfl (List.isEmpty_iff.mp none)
  case isFalse some => exact iff_of_false nofun (mt List.isEmpty_iff.mpr some)

theorem readSplit?_append (literal suffix : Text) :
    readSplit? (literal ++ suffix) (byteLength literal) = read? literal suffix := by
  rw [readSplit?, Text.splitAtByte?_append]
  rfl

end Measurement

/-- The number tokens of a text are numbers. Each is a numeral with the longest unit behind
it. Read with the byte where its unit starts, it is a measurement, whose value is not NaN
and which has no unit exactly if that byte is the end of the token. This measurement is the
item that building makes of the token. -/
theorem Token.measurement_of_scan
    {source literal unit : Text}
    {before after : List Token}
    (split : scan source = before ++ .number literal unit :: after) :
    IsNumberBefore (concat after) literal unit ∧
      ∃ measurement,
        Measurement.readSplit? (literal ++ unit) (byteLength literal) = some measurement ∧
          measurement.value.isNan = false ∧
          (measurement.unit = none ↔ byteLength literal = byteLength (literal ++ unit)) ∧
          Builder.numberNode literal unit = .number measurement := by
  obtain ⟨state, -, reading⟩ := exists_reaches_next? split
  have isNumber := isNumberBefore_of_next? reading
  obtain ⟨numeral, rfl⟩ := isNumber.isNumeral
  refine ⟨isNumber, .ofNumeral numeral unit, ?_, numeral.isNan_value, ?_, ?_⟩
  · rw [Measurement.readSplit?_append, Measurement.read?_numeral]
  · rw [Text.byteLength_append, Nat.left_eq_add, Text.byteLength_eq_zero_iff]
    exact Measurement.unitOf_eq_none_iff unit
  · rw [Builder.numberNode, Measurement.read?_numeral]

/-- An exponent, a unit that looks like another one, and an escape in the unit. -/
theorem Token.measurement_of_scan_exponents :
    scan "-1e5e5\\(x".toList = [] ++ .number "-1e5".toList "e5\\(x".toList :: [] ∧
      ∃ measurement,
        Measurement.readSplit? "-1e5e5\\(x".toList 4 = some measurement ∧
          measurement.value.isNan = false ∧ measurement.unit ≠ none := by
  have tokens : scan "-1e5e5\\(x".toList =
      [] ++ .number "-1e5".toList "e5\\(x".toList :: [] := by decide +kernel
  obtain ⟨-, measurement, read, value, unit, -⟩ := measurement_of_scan tokens
  exact ⟨tokens, measurement, read, value, fun none => absurd (unit.mp none) (by decide)⟩

end CssRescale
