import CssRescale.Decimal.Reading
import CssRescale.Proofs.Decimal.Nearest
import CssRescale.Proofs.Text.Numeral

/-!
Contract: every numeral reads as a number.

Owns: the decimal number that a numeral stands for, and that reading the text of
a numeral gives the nearest double-precision number, which is never NaN.
-/

set_option autoImplicit false

namespace CssRescale

/-- The power of ten of an exponent. -/
def Exponent.value (exponent : Exponent) : Int :=
  Decimal.signedValue exponent.sign exponent.digits

namespace Numeral

/-- The power of ten that the digits are multiplied by, zero without an exponent. -/
def exponentValue (numeral : Numeral) : Int :=
  match numeral.exponent? with
  | none => 0
  | some exponent => exponent.value

/-- The decimal number of a numeral without its sign. -/
def decimal (numeral : Numeral) : Decimal :=
  ⟨Text.digitsValue (numeral.whole ++ numeral.fraction),
    numeral.exponentValue - numeral.fraction.length⟩

def value (numeral : Numeral) : Binary64 :=
  Decimal.toBinary64 (numeral.sign == ['-']) numeral.decimal

/-! ## Reading the parts -/

theorem readExponent?_exponentText (numeral : Numeral) :
    Decimal.readExponent? numeral.exponentText = some numeral.exponentValue := by
  cases present : numeral.exponent? with
  | none => simp [exponentText, exponentValue, present, Decimal.readExponent?]
  | some exponent =>
      have digits := Text.startsWithDigit_append exponent.digits_valid exponent.digits_ne_nil []
      have ends : Text.startsWithDigit [] = false := rfl
      have signed : Text.takeSign (exponent.sign ++ exponent.digits) =
          (exponent.sign, exponent.digits) := by
        simpa using Text.takeSign_run exponent.sign_valid (Text.startsWithSign_of_digit digits)
      have taken : Text.takeDigits exponent.digits = (exponent.digits, []) := by
        simpa using Text.takeDigits_run exponent.digits_valid ends
      simp [exponentText, exponentValue, present, Exponent.text, Decimal.readExponent?,
        exponent.mark_valid, signed, taken, exponent.digits_ne_nil, Exponent.value]

theorem endsBefore_nil (numeral : Numeral) : numeral.EndsBefore [] := ⟨rfl, fun _ => rfl, fun _ _ => rfl⟩

theorem readUnsigned?_unsigned (numeral : Numeral) :
    Decimal.readUnsigned? (numeral.whole ++ (numeral.pointText ++ numeral.exponentText)) =
      some numeral.decimal := by
  have ends : Text.startsWithDigit (numeral.pointText ++ numeral.exponentText) = false := by
    simpa using numeral.endsBefore_nil.startsWithDigit_pointText
  have whole := Text.takeDigits_run numeral.whole_valid ends
  have exponentEnds : Text.startsWithDigit numeral.exponentText = false := by
    simpa using numeral.endsBefore_nil.startsWithDigit_exponentText
  have fraction := Text.takeDigits_run numeral.fraction_valid exponentEnds
  have exponent := numeral.readExponent?_exponentText
  have digits := numeral.digits_ne_nil
  unfold Decimal.readUnsigned?
  rw [whole]
  by_cases noFraction : numeral.fraction = []
  · have noPoint : ∀ rest, numeral.exponentText ≠ '.' :: rest := by
      intro rest starts
      unfold exponentText at starts
      split at starts
      · cases starts
      next exponent' _ =>
        exact isExponentMark_ne_point exponent'.mark_valid (List.cons.inj starts).1
    simp_all [pointText, decimal]
  · simp_all [pointText, decimal]

/-! ## Names of values -/

theorem toLower_of_isDigit {c : Char} (digit : c.isDigit = true) : c.toLower = c := by
  simp only [Char.isDigit, Bool.and_eq_true, decide_eq_true_eq, ge_iff_le,
    UInt32.le_iff_toNat_le] at digit
  have below : c.val.toNat ≤ 57 := digit.2
  unfold Char.toLower
  rw [dif_neg]
  simp only [ge_iff_le, UInt32.le_iff_toNat_le, not_and]
  intro above
  have : 65 ≤ c.val.toNat := above
  omega

/-- A name starts with the letter its lower case starts with. -/
theorem equalIgnoringCase_eq_false
    {first letter : Char}
    (rest name : Text)
    (other : first.toLower ≠ letter.toLower) :
    Text.equalIgnoringCase (first :: rest) (letter :: name) = false := by
  simp [Text.equalIgnoringCase, other]

/-- No name of a value starts with a digit or a point. -/
theorem readSpecial?_of_first
    {first : Char}
    (negative : Bool)
    (rest : Text)
    (numeric : first.isDigit = true ∨ first = '.') :
    Decimal.readSpecial? negative (first :: rest) = none := by
  have other : ∀ letter : Char, letter = 'i' ∨ letter = 'n' → first.toLower ≠ letter.toLower := by
    rintro letter named same
    rcases numeric with digit | rfl
    · rw [toLower_of_isDigit digit] at same
      rcases named with rfl | rfl
      · rw [same] at digit
        exact absurd digit (by decide)
      · rw [same] at digit
        exact absurd digit (by decide)
    · rcases named with rfl | rfl
      · exact absurd same (by decide)
      · exact absurd same (by decide)
  have noInfinity := other 'i' (Or.inl rfl)
  have noNan := other 'n' (Or.inr rfl)
  simp [Decimal.readSpecial?, equalIgnoringCase_eq_false _ _ noInfinity,
    equalIgnoringCase_eq_false _ _ noNan]

theorem readSpecial?_unsigned (negative : Bool) (numeral : Numeral) :
    Decimal.readSpecial? negative (numeral.whole ++ (numeral.pointText ++ numeral.exponentText)) =
      none := by
  cases whole : numeral.whole with
  | nil =>
      have fraction : numeral.fraction ≠ [] := by
        rcases numeral.digits_ne_nil with nonempty | nonempty
        · exact absurd whole nonempty
        · exact nonempty
      simp only [pointText, if_neg fraction, List.nil_append, List.cons_append]
      exact readSpecial?_of_first negative _ (Or.inr rfl)
  | cons first tail =>
      have digit : first.isDigit = true := numeral.whole_valid first (by simp [whole])
      exact readSpecial?_of_first negative _ (Or.inl digit)

/-- The text of a numeral reads as the number nearest to it. -/
theorem read?_text (numeral : Numeral) : Decimal.read? numeral.text = some numeral.value := by
  have unsigned : Text.startsWithSign
      (numeral.whole ++ (numeral.pointText ++ numeral.exponentText)) = false :=
    numeral.startsWithSign_unsigned _
  have sign := Text.takeSign_run numeral.sign_valid unsigned
  simp only [Decimal.read?, text, sign, readSpecial?_unsigned, readUnsigned?_unsigned,
    Option.map_some, value]

end Numeral

theorem Numeral.isNan_value (numeral : Numeral) : numeral.value.isNan = false :=
  Decimal.isNan_toBinary64 _ _

end CssRescale
