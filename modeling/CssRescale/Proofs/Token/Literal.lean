import CssRescale.Proofs.Text.Numeral
import CssRescale.Token.Scan

/-!
Contract: the reader of literals takes exactly the longest numeral.

Owns:
- what the reader takes is the text of a numeral, and what it leaves goes on
  none of the parts of that numeral;
- every numeral is taken whole before every text that goes on none of its parts.
-/

set_option autoImplicit false

namespace CssRescale.Token

open Numeral (startsFraction startsExponent)

/-! ## Numerals are taken whole -/

theorem takeFraction_of_startsFraction_eq_false
    {rest : Text}
    (ends : startsFraction rest = false) :
    takeFraction rest = ([], rest) := by
  unfold takeFraction
  split
  next tail =>
    have noDigit : Text.startsWithDigit tail = false := ends
    simp [noDigit]
  next => rfl

theorem takeExponent_of_startsExponent_eq_false
    {rest : Text}
    (ends : startsExponent rest = false) :
    takeExponent rest = ([], rest) := by
  cases rest with
  | nil => rfl
  | cons mark rest =>
      have other : (isExponentMark mark && Text.startsWithDigit (Text.takeSign rest).2) = false := ends
      simp [takeExponent, other]

theorem takeFraction_pointText
    {numeral : Numeral}
    {rest : Text}
    (ends : numeral.EndsBefore rest) :
    takeFraction (numeral.pointText ++ (numeral.exponentText ++ rest)) =
      (numeral.pointText, numeral.exponentText ++ rest) := by
  unfold Numeral.pointText
  split
  next noFraction =>
    rw [List.nil_append]
    apply takeFraction_of_startsFraction_eq_false
    cases exponent : numeral.exponent? with
    | none =>
        simpa [Numeral.exponentText, exponent] using ends.fraction exponent noFraction
    | some exponent' =>
        simp only [Numeral.exponentText, exponent, Exponent.text, List.cons_append]
        exact Numeral.startsFraction_of_ne
          (Numeral.isExponentMark_ne_point exponent'.mark_valid) _
  next fraction =>
    have digits := Text.startsWithDigit_append numeral.fraction_valid fraction
      (numeral.exponentText ++ rest)
    have taken := Text.takeDigits_run numeral.fraction_valid ends.startsWithDigit_exponentText
    simp [takeFraction, digits, taken]

theorem takeExponent_exponentText
    {numeral : Numeral}
    {rest : Text}
    (ends : numeral.EndsBefore rest) :
    takeExponent (numeral.exponentText ++ rest) = (numeral.exponentText, rest) := by
  cases present : numeral.exponent? with
  | none =>
      have absent : numeral.exponentText = [] := by simp [Numeral.exponentText, present]
      rw [absent]
      exact takeExponent_of_startsExponent_eq_false (ends.exponent present)
  | some exponent =>
      have digits := Text.startsWithDigit_append exponent.digits_valid exponent.digits_ne_nil rest
      have signed : Text.takeSign (exponent.sign ++ (exponent.digits ++ rest)) =
          (exponent.sign, exponent.digits ++ rest) :=
        Text.takeSign_run exponent.sign_valid (Text.startsWithSign_of_digit digits)
      have taken := Text.takeDigits_run exponent.digits_valid ends.digit
      simp [Numeral.exponentText, present, Exponent.text, takeExponent, signed, digits, taken,
        exponent.mark_valid]

/-- A numeral is taken whole before every text that goes on none of its parts. -/
theorem takeLiteral_text
    {numeral : Numeral}
    {rest : Text}
    (ends : numeral.EndsBefore rest) :
    takeLiteral (numeral.text ++ rest) = (numeral.text, rest) := by
  have sign := Text.takeSign_run numeral.sign_valid
    (numeral.startsWithSign_unsigned (numeral.exponentText ++ rest))
  have whole := Text.takeDigits_run numeral.whole_valid ends.startsWithDigit_pointText
  simp only [takeLiteral, Numeral.text, List.append_assoc, sign, whole,
    takeFraction_pointText ends, takeExponent_exponentText ends]

/-! ## What is taken is a numeral -/

theorem takeFraction_fraction (text : Text) :
    (takeFraction text = ([], text) ∧ startsFraction text = false) ∨
      ∃ digits : Text,
        Text.IsDigits digits ∧ digits ≠ [] ∧ (takeFraction text).1 = '.' :: digits ∧
          Text.startsWithDigit (takeFraction text).2 = false := by
  by_cases present : startsFraction text = true
  · right
    obtain ⟨rest, rfl, digit⟩ : ∃ rest, text = '.' :: rest ∧ Text.startsWithDigit rest = true := by
      fun_cases startsFraction text with
      | case1 rest => exact ⟨rest, rfl, present⟩
      | case2 => simp [startsFraction] at present
    refine ⟨(Text.takeDigits rest).1, Text.isDigits_takeDigits rest, takeDigits_ne_nil digit, ?_, ?_⟩
    · simp [takeFraction, digit]
    · simpa [takeFraction, digit] using Text.startsWithDigit_takeDigits rest
  · left
    rw [Bool.not_eq_true] at present
    exact ⟨takeFraction_of_startsFraction_eq_false present, present⟩

theorem takeExponent_exponent (text : Text) :
    (takeExponent text = ([], text) ∧ startsExponent text = false) ∨
      ∃ exponent : Exponent,
        (takeExponent text).1 = exponent.text ∧
          Text.startsWithDigit (takeExponent text).2 = false := by
  cases text with
  | nil => exact Or.inl ⟨rfl, rfl⟩
  | cons mark rest =>
      by_cases present :
          (isExponentMark mark && Text.startsWithDigit (Text.takeSign rest).2) = true
      · right
        rw [Bool.and_eq_true] at present
        refine ⟨⟨mark, (Text.takeSign rest).1, (Text.takeDigits (Text.takeSign rest).2).1,
          present.1, Text.isSignText_takeSign rest, Text.isDigits_takeDigits _,
          takeDigits_ne_nil present.2⟩, ?_, ?_⟩
        · simp [takeExponent, present, Exponent.text]
        · simpa [takeExponent, present] using
            Text.startsWithDigit_takeDigits (Text.takeSign rest).2
      · left
        rw [Bool.not_eq_true] at present
        exact ⟨takeExponent_of_startsExponent_eq_false present, present⟩

/-- A number starts with a digit or a fraction, perhaps after a sign. -/
theorem startsNumber_eq (source : Text) :
    startsNumber source =
      (Text.startsWithDigit (Text.takeSign source).2 ||
        startsFraction (Text.takeSign source).2) := by
  unfold startsNumber
  split
  · rfl
  next rest => simp [Text.takeSign, isSign, startsFraction, Text.startsWithDigit]
  next first rest noPoint =>
    by_cases signed : isSign first = true
    · simp only [signed, if_true, Text.takeSign]
      congr 1
    · have other : startsFraction (first :: rest) = false := Numeral.startsFraction_of_ne noPoint rest
      simp [Text.takeSign, signed, other, Text.startsWithDigit]

/-- Where a number starts, its literal is the text of a numeral, and what is
left goes on none of the parts of that numeral. -/
theorem takeLiteral_numeral
    {source : Text}
    (number : startsNumber source = true) :
    ∃ numeral : Numeral,
      (takeLiteral source).1 = numeral.text ∧ numeral.EndsBefore (takeLiteral source).2 := by
  rw [startsNumber_eq] at number
  have signValid := Text.isSignText_takeSign source
  have wholeValid := Text.isDigits_takeDigits (Text.takeSign source).2
  have wholeEnds := Text.startsWithDigit_takeDigits (Text.takeSign source).2
  have wholePart := Text.takeDigits_append (Text.takeSign source).2
  have literal : takeLiteral source =
      ((Text.takeSign source).1 ++ (Text.takeDigits (Text.takeSign source).2).1
        ++ (takeFraction (Text.takeDigits (Text.takeSign source).2).2).1
        ++ (takeExponent (takeFraction (Text.takeDigits (Text.takeSign source).2).2).2).1,
        (takeExponent (takeFraction (Text.takeDigits (Text.takeSign source).2).2).2).2) := rfl
  rw [literal]
  generalize (Text.takeSign source).1 = sign at signValid ⊢
  generalize (Text.takeSign source).2 = unsigned at number wholeValid wholeEnds wholePart ⊢
  generalize (Text.takeDigits unsigned).1 = whole at wholeValid wholePart ⊢
  generalize (Text.takeDigits unsigned).2 = afterWhole at wholeEnds wholePart ⊢
  -- The part after the whole digits, with or without a fraction, and what may not follow it.
  obtain ⟨fraction, fractionValid, digits, point, fractionEnds, noFraction⟩ :
      ∃ fraction : Text,
        Text.IsDigits fraction ∧ (whole ≠ [] ∨ fraction ≠ []) ∧
          (takeFraction afterWhole).1 = (if fraction = [] then [] else '.' :: fraction) ∧
          Text.startsWithDigit (takeFraction afterWhole).2 = false ∧
          (fraction = [] → startsFraction (takeFraction afterWhole).2 = false) := by
    rcases takeFraction_fraction afterWhole with
      ⟨stays, absent⟩ | ⟨fraction, valid, nonempty, taken, ends⟩
    · rw [stays]
      refine ⟨[], by simp [Text.IsDigits], Or.inl ?_, rfl, wholeEnds, fun _ => absent⟩
      intro equal
      subst equal
      rw [List.nil_append] at wholePart
      rw [← wholePart, wholeEnds, absent] at number
      exact absurd number (by decide)
    · refine ⟨fraction, valid, Or.inr nonempty, ?_, ends, fun none => absurd none nonempty⟩
      rw [taken, if_neg nonempty]
  generalize (takeFraction afterWhole).1 = pointText at point ⊢
  generalize (takeFraction afterWhole).2 = afterFraction at fractionEnds noFraction ⊢
  subst point
  rcases takeExponent_exponent afterFraction with
    ⟨stays, noExponent⟩ | ⟨exponent, exponentText, exponentEnds⟩
  · refine ⟨⟨sign, whole, fraction, none, signValid, wholeValid, fractionValid, digits⟩, ?_, ?_⟩
    · simp [Numeral.text, Numeral.pointText, Numeral.exponentText, stays]
    · rw [stays]
      exact ⟨fractionEnds, fun _ => noExponent, fun _ absent => noFraction absent⟩
  · refine ⟨⟨sign, whole, fraction, some exponent, signValid, wholeValid, fractionValid, digits⟩,
      ?_, ?_⟩
    · simp [Numeral.text, Numeral.pointText, Numeral.exponentText, exponentText]
    · refine ⟨exponentEnds, ?_, ?_⟩
      all_goals
        intro absent
        cases absent

/-! ## Literals before a text that goes on none -/

/-- The characters of literals. -/
def isLiteralChar (c : Char) : Bool := c.isDigit || c == '.' || isSign c || isExponentMark c

section

variable
  {following : Text}
  (ends : Text.headIs isLiteralChar following = false)
  (text : Text)

include ends

theorem headIs_isDigit_of_ends : Text.headIs Char.isDigit following = false :=
  Text.headIs_eq_false_of_imp (fun c digit => by simp [isLiteralChar, digit]) ends

theorem headIs_isSign_of_ends : Text.headIs isSign following = false :=
  Text.headIs_eq_false_of_imp (fun c sign => by simp [isLiteralChar, sign]) ends

theorem startsFraction_append_of_ends :
    startsFraction (text ++ following) = startsFraction text := by
  cases text with
  | nil =>
      cases following with
      | nil => rfl
      | cons first rest =>
          have other : first ≠ '.' := by
            rintro rfl
            cases ends
          exact Numeral.startsFraction_of_ne other rest
  | cons first rest =>
      by_cases point : first = '.'
      · rw [point]
        exact Text.startsWithDigit_append_of_ends (headIs_isDigit_of_ends ends) rest
      · rw [List.cons_append, Numeral.startsFraction_of_ne point,
          Numeral.startsFraction_of_ne point]

theorem startsNumber_append_of_ends :
    startsNumber (text ++ following) = startsNumber text := by
  rw [startsNumber_eq, startsNumber_eq,
    Text.takeSign_append_of_ends (headIs_isSign_of_ends ends),
    Text.startsWithDigit_append_of_ends (headIs_isDigit_of_ends ends),
    startsFraction_append_of_ends ends]

theorem takeFraction_append_of_ends :
    takeFraction (text ++ following) =
      ((takeFraction text).1, (takeFraction text).2 ++ following) := by
  cases present : startsFraction text with
  | false =>
      have absent := (startsFraction_append_of_ends ends text).trans present
      rw [takeFraction_of_startsFraction_eq_false present,
        takeFraction_of_startsFraction_eq_false absent]
  | true =>
      fun_cases startsFraction text with
      | case1 rest =>
          have digit : Text.startsWithDigit rest = true := present
          have digits := headIs_isDigit_of_ends ends
          have goesOn := (Text.startsWithDigit_append_of_ends digits rest).trans digit
          simp [takeFraction, digit, goesOn, Text.takeDigits_append_of_ends digits]
      | case2 => simp [startsFraction] at present

theorem takeExponent_append_of_ends :
    takeExponent (text ++ following) =
      ((takeExponent text).1, (takeExponent text).2 ++ following) := by
  cases text with
  | nil =>
      have absent : startsExponent following = false := by
        cases following with
        | nil => rfl
        | cons first rest =>
            have outside : isLiteralChar first = false := ends
            simp only [isLiteralChar, Bool.or_eq_false_iff] at outside
            simp [startsExponent, outside.2]
      exact takeExponent_of_startsExponent_eq_false absent
  | cons mark rest =>
      simp only [List.cons_append, takeExponent,
        Text.takeSign_append_of_ends (headIs_isSign_of_ends ends),
        Text.startsWithDigit_append_of_ends (headIs_isDigit_of_ends ends),
        Text.takeDigits_append_of_ends (headIs_isDigit_of_ends ends)]
      split <;> rfl

/-- A literal ends where it does, whatever stands behind the text that goes on no literal. -/
theorem takeLiteral_append_of_ends :
    takeLiteral (text ++ following) =
      ((takeLiteral text).1, (takeLiteral text).2 ++ following) := by
  simp only [takeLiteral, Text.takeSign_append_of_ends (headIs_isSign_of_ends ends),
    Text.takeDigits_append_of_ends (headIs_isDigit_of_ends ends),
    takeFraction_append_of_ends ends, takeExponent_append_of_ends ends]

end

end CssRescale.Token
