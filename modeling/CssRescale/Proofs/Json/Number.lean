import CssRescale.Json.Number
import CssRescale.Proofs.Binary64.Quotients
import CssRescale.Proofs.Binary64.Sign
import CssRescale.Proofs.Decimal.Numeral

/-!
Contract: how numbers are written in JSON text.

    "-"? ("0" | digit without zero, digits) ("." digits)? (("e" | "E") sign? digits)?

Every number of this grammar is read, with its parts told apart, before a text that does
not go on. Integers are numbers without a fraction and an exponent; those that fit 64 bits
have a value, so they are not refused as numbers.

Owns:
- the grammar of numbers, and of the integers among them;
- reading a number from what it is written as, one law for each part;
- the value of a small integer.

Does not own: the values of other numbers.
-/

set_option autoImplicit false

namespace CssRescale.Json

open Text (IsDigits digitsValue)

/-! ## The grammar of numbers -/

/-- The whole part: zero, or digits that do not start with zero. -/
inductive WholeText : Text → Prop where
  | zero : WholeText ['0']
  | digits {first : Char} {rest : Text}
      (areDigits : IsDigits (first :: rest))
      (notZero : first ≠ '0') :
      WholeText (first :: rest)

def minusText (negative : Bool) : Text := if negative then ['-'] else []

def fractionText : Option Text → Text
  | none => []
  | some digits => '.' :: digits

def exponentText : Option Exponent → Text
  | none => []
  | some exponent => exponent.text

/-- The spellings of a number. -/
inductive NumberText : Numeral → Text → Prop where
  | parts {negative : Bool} {whole : Text} {fraction : Option Text} {exponent : Option Exponent}
      (isWhole : WholeText whole)
      (isFraction : ∀ digits, fraction = some digits → digits ≠ [] ∧ IsDigits digits) :
      NumberText ⟨negative, whole, fraction, exponent.map Exponent.value⟩
        (minusText negative ++ (whole ++ (fractionText fraction ++ exponentText exponent)))

/-- The spellings of an integer of 64 bits. Zero has no minus sign. -/
inductive IntegerText : Int → Text → Prop where
  | natural {whole : Text}
      (isWhole : WholeText whole)
      (fits : digitsValue whole < 2 ^ 63) :
      IntegerText (digitsValue whole) whole
  | negative {whole : Text}
      (isWhole : WholeText whole)
      (nonzero : 0 < digitsValue whole)
      (fits : digitsValue whole ≤ 2 ^ 63) :
      IntegerText (-(digitsValue whole : Int)) ('-' :: whole)

/-- The characters that go on a number. -/
def continuesNumber (c : Char) : Bool := c.isDigit || c == '.' || isExponentMark c

/-! ## The first character -/

/-- The characters that numbers start with. -/
def startsNumber (c : Char) : Bool := c == '-' || c.isDigit

theorem WholeText.exists_digit
    {whole : Text}
    (isWhole : WholeText whole) :
    ∃ first rest, whole = first :: rest ∧ first.isDigit = true := by
  cases isWhole with
  | zero => exact ⟨_, _, rfl, rfl⟩
  | digits areDigits _ => exact ⟨_, _, rfl, areDigits _ (List.mem_cons_self ..)⟩

theorem NumberText.exists_starts
    {numeral : Numeral}
    {written : Text}
    (isNumber : NumberText numeral written) :
    ∃ first rest, written = first :: rest ∧ startsNumber first = true := by
  obtain @⟨negative, _, _, _, isWhole, _⟩ := isNumber
  cases negative with
  | true => exact ⟨_, _, rfl, rfl⟩
  | false =>
      obtain ⟨first, rest, rfl, isDigit⟩ := isWhole.exists_digit
      exact ⟨_, _, rfl, by simp [startsNumber, isDigit]⟩

theorem IntegerText.exists_starts
    {digits : Int}
    {written : Text}
    (isInteger : IntegerText digits written) :
    ∃ first rest, written = first :: rest ∧ startsNumber first = true := by
  cases isInteger with
  | negative isWhole _ _ => exact ⟨_, _, rfl, rfl⟩
  | natural isWhole _ =>
      obtain ⟨first, rest, rfl, isDigit⟩ := isWhole.exists_digit
      exact ⟨_, _, rfl, by simp [startsNumber, isDigit]⟩

/-! ## Reading the parts -/

theorem readWhole?_wholeText
    {whole following : Text}
    (isWhole : WholeText whole)
    (ends : Text.startsWithDigit following = false) :
    readWhole? (whole ++ following) = some (whole, following) := by
  cases isWhole with
  | zero =>
      have zero : IsDigits ['0'] := by simp [IsDigits]
      rw [readWhole?, Text.takeDigits_run zero ends]
      rfl
  | digits areDigits notZero =>
      rw [readWhole?, Text.takeDigits_run areDigits ends]
      simp [notZero]

section

variable
  {rest : Text}
  (ends : Text.headIs continuesNumber rest = false)

include ends

/-- What does not go on a number starts with no digit, no point and no mark of an exponent. -/
theorem not_continues :
    Text.startsWithDigit rest = false ∧ Text.headIs (· == '.') rest = false ∧
      Text.headIs isExponentMark rest = false := by
  cases rest with
  | nil => exact ⟨rfl, rfl, rfl⟩
  | cons first rest =>
      simpa [Text.headIs, continuesNumber, Text.startsWithDigit, and_assoc] using ends

theorem readExponent?_exponentText (exponent : Option Exponent) :
    readExponent? (exponentText exponent ++ rest) = some (exponent.map Exponent.value, rest) := by
  obtain ⟨noDigit, -, noMark⟩ := not_continues ends
  cases exponent with
  | none =>
      cases rest with
      | nil => rfl
      | cons first rest =>
          have noMark : isExponentMark first = false := noMark
          simp [exponentText, readExponent?, noMark]
  | some exponent =>
      have digits := Text.startsWithDigit_append exponent.digits_valid exponent.digits_ne_nil rest
      have signed := Text.takeSign_run exponent.sign_valid (Text.startsWithSign_of_digit digits)
      have taken := Text.takeDigits_run exponent.digits_valid noDigit
      simp [exponentText, Exponent.text, readExponent?, exponent.mark_valid, signed, taken,
        exponent.digits_ne_nil, Exponent.value, Decimal.signedValue]

theorem startsWithDigit_exponentText (exponent : Option Exponent) :
    Text.startsWithDigit (exponentText exponent ++ rest) = false := by
  cases exponent with
  | none => exact (not_continues ends).1
  | some exponent =>
      have isMark := exponent.mark_valid
      simp only [isExponentMark, Bool.or_eq_true, beq_iff_eq] at isMark
      rcases isMark with isMark | isMark
      · simp [exponentText, Exponent.text, Text.startsWithDigit, isMark]
      · simp [exponentText, Exponent.text, Text.startsWithDigit, isMark]

theorem readFraction?_fractionText
    {fraction : Option Text}
    (isFraction : ∀ digits, fraction = some digits → digits ≠ [] ∧ IsDigits digits)
    (exponent : Option Exponent) :
    readFraction? (fractionText fraction ++ (exponentText exponent ++ rest)) =
      some (fraction, exponentText exponent ++ rest) := by
  cases fraction with
  | some digits =>
      obtain ⟨nonempty, areDigits⟩ := isFraction digits rfl
      have taken := Text.takeDigits_run areDigits (startsWithDigit_exponentText ends exponent)
      simp [fractionText, readFraction?, taken, nonempty]
  | none =>
      obtain ⟨-, noPoint, -⟩ := not_continues ends
      rw [fractionText, List.nil_append]
      unfold readFraction?
      split
      case h_2 => rfl
      case h_1 after starts =>
        cases exponent with
        | none =>
            rw [exponentText, List.nil_append] at starts
            rw [starts] at noPoint
            cases noPoint
        | some exponent =>
            have isMark := exponent.mark_valid
            rw [(List.cons.inj starts).1] at isMark
            cases isMark

/-- A number is read from each of its spellings, before a text that does not go on. -/
theorem readNumeral?_numberText
    {numeral : Numeral}
    {written : Text}
    (isNumber : NumberText numeral written) :
    readNumeral? (written ++ rest) = some (numeral, rest) := by
  obtain @⟨negative, whole, fraction, exponent, isWhole, isFraction⟩ := isNumber
  have noDigit : Text.startsWithDigit
      (fractionText fraction ++ (exponentText exponent ++ rest)) = false := by
    cases fraction with
    | none => exact startsWithDigit_exponentText ends exponent
    | some digits => rfl
  have unsigned : readWhole? (whole ++ (fractionText fraction ++ (exponentText exponent ++ rest))) =
      some (whole, fractionText fraction ++ (exponentText exponent ++ rest)) :=
    readWhole?_wholeText isWhole noDigit
  have fractional := readFraction?_fractionText ends isFraction exponent
  have exponential := readExponent?_exponentText ends exponent
  simp only [List.append_assoc]
  cases negative with
  | true => simp [readNumeral?, minusText, unsigned, fractional, exponential]
  | false =>
      obtain ⟨first, others, rfl, isDigit⟩ := isWhole.exists_digit
      have noMinus : first ≠ '-' := by
        rintro rfl
        cases isDigit
      rw [List.cons_append] at unsigned
      simp [readNumeral?, minusText, noMinus, unsigned, fractional, exponential]

end

/-! ## Small integers -/

/-- Appends digits to a number. -/
def appendDigits (significand : Nat) (digits : Text) : Nat :=
  digits.foldl (fun value digit => 10 * value + (digit.toNat - '0'.toNat)) significand

theorem le_appendDigits (significand : Nat) (digits : Text) :
    significand ≤ appendDigits significand digits := by
  induction digits generalizing significand with
  | nil => exact Nat.le_refl _
  | cons digit rest inductionHypothesis =>
      calc
        significand ≤ 10 * significand + (digit.toNat - '0'.toNat) := by omega
        _ ≤ appendDigits significand (digit :: rest) := inductionHypothesis _

/-- The digits of a number that fits a word are all taken. -/
theorem absorb_eq
    {digits : Text}
    {significand : Nat}
    (fits : appendDigits significand digits ≤ largestWord) :
    absorb significand digits = (appendDigits significand digits, digits.length) := by
  induction digits generalizing significand with
  | nil => rfl
  | cons digit rest inductionHypothesis =>
      have longer : significand * 10 + digitsValue [digit] =
          10 * significand + (digit.toNat - '0'.toNat) := by
        simp [digitsValue, Nat.mul_comm]
      have bounded := Nat.le_trans (le_appendDigits _ rest) fits
      rw [absorb, longer]
      dsimp only
      rw [if_pos bounded, inductionHypothesis fits]
      rfl

theorem power_zero : power 0 = .finite false ⟨Binary64.unitsPerOne, by decide +kernel⟩ := by
  decide +kernel

/-- A finite number times the power of zero stays finite, as nothing is rounded. -/
theorem isFinite_mul_power_zero {value : Binary64} (isFinite : value.isFinite = true) :
    (value.mul (power 0)).isFinite = true := by
  obtain ⟨negative, size, rfl⟩ := Binary64.exists_finite isFinite
  have rounded : Binary64.roundUnits (size.units * Binary64.unitsPerOne) Binary64.unitsPerOne =
      size.units :=
    Binary64.roundUnits_mul Binary64.unitsPerOne_pos size.representable.2
  rw [power_zero, Binary64.mul]
  refine Binary64.isFinite_ofUnits _ ?_
  rw [rounded]
  exact size.representable.1

/-- An integer that fits a word has a value. -/
theorem isSome_value?
    {whole : Text}
    (negative : Bool)
    (fits : digitsValue whole ≤ largestWord) :
    (Numeral.value? ⟨negative, whole, none, none⟩).isSome = true := by
  have taken : absorb 0 whole = (digitsValue whole, whole.length) := absorb_eq fits
  have finite := isFinite_mul_power_zero
    (Binary64.isFinite_ofNat (Nat.le_trans fits (by decide : largestWord ≤ 2 ^ 64)))
  have scaled : scale? (Binary64.ofNat (digitsValue whole)) 0 =
      some ((Binary64.ofNat (digitsValue whole)).mul (power 0)) := by
    rw [scale?]
    simp [finite]
  simp [Numeral.value?, taken, absorb, scaled]

/-- An integer of 64 bits is read as a number that is this integer. -/
theorem IntegerText.readNumber?_eq
    {digits : Int}
    {written rest : Text}
    (isInteger : IntegerText digits written)
    (ends : Text.headIs continuesNumber rest = false) :
    ∃ numeral value, readNumber? (written ++ rest) = some (numeral, value, rest) ∧
      numeral.integer? = some digits := by
  have reads : ∀ {negative : Bool} {whole : Text}, WholeText whole → digitsValue whole ≤ 2 ^ 63 →
      ∃ value, readNumber? (minusText negative ++ whole ++ rest) =
        some (⟨negative, whole, none, none⟩, value, rest) := by
    intro negative whole isWhole fits
    have isNumber : NumberText ⟨negative, whole, none, none⟩ (minusText negative ++ whole) := by
      have parts := @NumberText.parts negative whole none none isWhole nofun
      rwa [fractionText, exponentText, List.append_nil, List.append_nil] at parts
    obtain ⟨value, isValue⟩ := Option.isSome_iff_exists.mp
      (isSome_value? negative (Nat.le_trans fits (by decide : 2 ^ 63 ≤ largestWord)))
    refine ⟨value, ?_⟩
    rw [readNumber?, readNumeral?_numberText ends isNumber]
    simp [isValue]
  cases isInteger with
  | natural isWhole fits =>
      obtain ⟨value, read⟩ := @reads false _ isWhole (Nat.le_of_lt fits)
      exact ⟨_, value, read, by simp [Numeral.integer?, fits]⟩
  | negative isWhole nonzero fits =>
      obtain ⟨value, read⟩ := @reads true _ isWhole fits
      exact ⟨_, value, read, by simp [Numeral.integer?, nonzero, fits]⟩

end CssRescale.Json
