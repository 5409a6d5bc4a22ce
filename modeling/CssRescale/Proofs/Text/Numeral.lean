import CssRescale.Proofs.Text.Runs

/-!
Contract: the grammar of numeric literals.

    sign? (digits ("." digits)? | "." digits) (("e" | "E") sign? digits)?

A numeral is a literal with its parts told apart. Its parts carry the proofs
that they are of this grammar, so every numeral has a text that is a literal.

Owns: the type `Numeral`, its text, and what may not follow that text.

Does not own: finding numerals in a text, or their values.
-/

set_option autoImplicit false

namespace CssRescale

/-- An exponent from its mark on. -/
structure Exponent where
  mark : Char
  sign : Text
  digits : Text
  mark_valid : isExponentMark mark = true
  sign_valid : Text.IsSignText sign
  digits_valid : Text.IsDigits digits
  digits_ne_nil : digits ≠ []

def Exponent.text (exponent : Exponent) : Text :=
  exponent.mark :: (exponent.sign ++ exponent.digits)

def Exponent.appendDigits
    (exponent : Exponent)
    (digits : Text)
    (valid : Text.IsDigits digits) :
    Exponent :=
  { exponent with
    digits := exponent.digits ++ digits
    digits_valid := exponent.digits_valid.append valid
    digits_ne_nil := by simp [exponent.digits_ne_nil] }

/-- A numeric literal by its parts. There is a point if and only if there is a fraction. -/
structure Numeral where
  sign : Text
  whole : Text
  fraction : Text
  exponent? : Option Exponent
  sign_valid : Text.IsSignText sign
  whole_valid : Text.IsDigits whole
  fraction_valid : Text.IsDigits fraction
  digits_ne_nil : whole ≠ [] ∨ fraction ≠ []

namespace Numeral

def pointText (numeral : Numeral) : Text :=
  if numeral.fraction = [] then [] else '.' :: numeral.fraction

def exponentText (numeral : Numeral) : Text :=
  match numeral.exponent? with
  | none => []
  | some exponent => exponent.text

def text (numeral : Numeral) : Text :=
  numeral.sign ++ (numeral.whole ++ (numeral.pointText ++ numeral.exponentText))

/-- Does the text start with a point and a digit? -/
def startsFraction : Text → Bool
  | '.' :: rest => Text.startsWithDigit rest
  | _ => false

def startsExponent : Text → Bool
  | [] => false
  | mark :: rest => isExponentMark mark && Text.startsWithDigit (Text.takeSign rest).2

/-- A numeral ends before a text that goes on none of its parts. -/
structure EndsBefore (numeral : Numeral) (rest : Text) : Prop where
  digit : Text.startsWithDigit rest = false
  exponent : numeral.exponent? = none → startsExponent rest = false
  fraction : numeral.exponent? = none → numeral.fraction = [] → startsFraction rest = false

/-! ## How the parts start -/

theorem startsFraction_of_ne {first : Char} (other : first ≠ '.') (rest : Text) :
    startsFraction (first :: rest) = false := by
  rw [startsFraction]
  intro _ same
  exact other (List.cons.inj same).1

theorem isExponentMark_ne_point {mark : Char} (valid : isExponentMark mark = true) : mark ≠ '.' := by
  intro equal
  subst equal
  exact absurd valid (by decide)

theorem isDigit_of_isExponentMark {mark : Char} (valid : isExponentMark mark = true) :
    mark.isDigit = false := by
  simp only [isExponentMark, Bool.or_eq_true, beq_iff_eq] at valid
  rcases valid with rfl | rfl <;> decide

/-- Neither an exponent nor a text that ends the numeral goes on digits. -/
theorem EndsBefore.startsWithDigit_exponentText
    {numeral : Numeral}
    {rest : Text}
    (ends : numeral.EndsBefore rest) :
    Text.startsWithDigit (numeral.exponentText ++ rest) = false := by
  unfold exponentText
  split
  · exact ends.digit
  next exponent _ => exact isDigit_of_isExponentMark exponent.mark_valid

theorem EndsBefore.startsWithDigit_pointText
    {numeral : Numeral}
    {rest : Text}
    (ends : numeral.EndsBefore rest) :
    Text.startsWithDigit (numeral.pointText ++ (numeral.exponentText ++ rest)) = false := by
  unfold pointText
  split
  · exact ends.startsWithDigit_exponentText
  · rfl

/-- A numeral without its sign starts with a digit, or with a point and a digit. -/
theorem startsWithSign_unsigned (numeral : Numeral) (rest : Text) :
    Text.startsWithSign (numeral.whole ++ (numeral.pointText ++ rest)) = false := by
  cases whole : numeral.whole with
  | nil =>
      have fraction : numeral.fraction ≠ [] := by
        rcases numeral.digits_ne_nil with nonempty | nonempty
        · exact absurd whole nonempty
        · exact nonempty
      simp only [pointText, if_neg fraction, List.nil_append]
      rfl
  | cons first tail =>
      have digit : first.isDigit = true := numeral.whole_valid first (by simp [whole])
      exact Text.startsWithSign_of_digit digit

/-! ## Integers -/

def IsInteger (numeral : Numeral) : Prop := numeral.fraction = [] ∧ numeral.exponent? = none

/-- The characters that integers do not have. -/
def marksPart (c : Char) : Bool := c == '.' || isExponentMark c

/-- No part but an exponent has a character of a class without digits and signs. -/
theorem any_parts_eq_false
    {holds : Char → Bool}
    (digits : ∀ c : Char, c.isDigit = true → holds c = false)
    (plus : holds '+' = false)
    (minus : holds '-' = false)
    (numeral : Numeral) :
    numeral.sign.any holds = false ∧ numeral.whole.any holds = false ∧
      numeral.fraction.any holds = false := by
  refine ⟨?_, ?_, ?_⟩
  · rcases numeral.sign_valid with none | sign | sign
    · rw [none]
      rfl
    · simp [sign, plus]
    · simp [sign, minus]
  · exact List.any_eq_false.mpr fun c member => by simp [digits c (numeral.whole_valid c member)]
  · exact List.any_eq_false.mpr fun c member => by simp [digits c (numeral.fraction_valid c member)]

/-- No numeral has a character of a class without digits, signs, points and marks of
exponents. -/
theorem any_text_eq_false
    {holds : Char → Bool}
    (digits : ∀ c : Char, c.isDigit = true → holds c = false)
    (plus : holds '+' = false)
    (minus : holds '-' = false)
    (point : holds '.' = false)
    (marks : ∀ c : Char, isExponentMark c = true → holds c = false)
    (numeral : Numeral) :
    numeral.text.any holds = false := by
  obtain ⟨sign, whole, fraction⟩ := numeral.any_parts_eq_false digits plus minus
  have pointText : numeral.pointText.any holds = false := by
    unfold Numeral.pointText
    split
    · rfl
    · rw [List.any_cons, point, fraction]
      rfl
  have exponentText : numeral.exponentText.any holds = false := by
    unfold Numeral.exponentText
    split
    · rfl
    next exponent _ =>
      have signed : exponent.sign.any holds = false := by
        rcases exponent.sign_valid with none | sign | sign
        · rw [none]
          rfl
        · simp [sign, plus]
        · simp [sign, minus]
      have counted : exponent.digits.any holds = false :=
        List.any_eq_false.mpr fun c member => by simp [digits c (exponent.digits_valid c member)]
      simp [Exponent.text, marks _ exponent.mark_valid, signed, counted]
  simp only [text, List.any_append, sign, whole, pointText, exponentText, Bool.false_or]

theorem isExponentMark_of_isDigit {c : Char} (digit : c.isDigit = true) :
    isExponentMark c = false := by
  cases mark : isExponentMark c with
  | false => rfl
  | true =>
      rw [isDigit_of_isExponentMark mark] at digit
      cases digit

theorem any_isExponentMark_text (numeral : Numeral) :
    numeral.text.any isExponentMark = numeral.exponent?.isSome := by
  obtain ⟨sign, whole, fraction⟩ :=
    numeral.any_parts_eq_false (fun _ => isExponentMark_of_isDigit) rfl rfl
  have point : numeral.pointText.any isExponentMark = false := by
    unfold pointText
    split
    · rfl
    · rw [List.any_cons, fraction]
      rfl
  simp only [text, List.any_append, sign, whole, point, Bool.false_or]
  cases present : numeral.exponent? with
  | none => simp [exponentText, present]
  | some exponent => simp [exponentText, present, Exponent.text, exponent.mark_valid]

theorem any_marksPart_text (numeral : Numeral) :
    numeral.text.any marksPart = true ↔ ¬numeral.IsInteger := by
  have digits : ∀ c : Char, c.isDigit = true → marksPart c = false := by
    intro c digit
    have noPoint : c ≠ '.' := by
      intro equal
      subst equal
      exact absurd digit (by decide)
    simp [marksPart, noPoint, isExponentMark_of_isDigit digit]
  obtain ⟨sign, whole, _⟩ := numeral.any_parts_eq_false digits rfl rfl
  simp only [text, List.any_append, sign, whole, Bool.false_or, IsInteger, not_and]
  by_cases noFraction : numeral.fraction = []
  · cases present : numeral.exponent? with
    | none => simp [pointText, exponentText, noFraction, present]
    | some exponent =>
        have mark := exponent.mark_valid
        simp [pointText, exponentText, noFraction, present, Exponent.text, marksPart, mark]
  · simp [pointText, noFraction, marksPart]

/-! ## Longer numerals -/

/-- An integer with the digits and the fraction of another numeral after it. -/
def join (numeral next : Numeral) : Numeral where
  sign := numeral.sign
  whole := numeral.whole ++ next.whole
  fraction := next.fraction
  exponent? := none
  sign_valid := numeral.sign_valid
  whole_valid := numeral.whole_valid.append next.whole_valid
  fraction_valid := next.fraction_valid
  digits_ne_nil := by
    rcases next.digits_ne_nil with nonempty | nonempty
    · exact Or.inl (by simp [nonempty])
    · exact Or.inr nonempty

theorem text_join
    {numeral : Numeral}
    (integer : numeral.IsInteger)
    (next : Numeral) :
    (numeral.join next).text = numeral.text ++ (next.whole ++ next.pointText) := by
  have point : (numeral.join next).pointText = next.pointText := rfl
  have exponent : (numeral.join next).exponentText = [] := rfl
  have noPoint : numeral.pointText = [] := by simp [pointText, integer.1]
  have noExponent : numeral.exponentText = [] := by simp [exponentText, integer.2]
  rw [text, text, point, exponent, noPoint, noExponent]
  simp [join]

/-- A numeral with more digits in its exponent or, if it has none, in its fraction. -/
def appendDigits
    (numeral : Numeral)
    (digits : Text)
    (valid : Text.IsDigits digits) :
    Numeral :=
  match numeral.exponent? with
  | some exponent => { numeral with exponent? := some (exponent.appendDigits digits valid) }
  | none =>
      { numeral with
        fraction := numeral.fraction ++ digits
        fraction_valid := numeral.fraction_valid.append valid
        digits_ne_nil := numeral.digits_ne_nil.imp id fun nonempty => by simp [nonempty] }

theorem text_appendDigits
    {numeral : Numeral}
    {digits : Text}
    (parts : ¬numeral.IsInteger)
    (valid : Text.IsDigits digits) :
    (numeral.appendDigits digits valid).text = numeral.text ++ digits := by
  unfold appendDigits
  split
  next exponent present =>
    simp [text, pointText, exponentText, present, Exponent.text, Exponent.appendDigits]
  next none =>
    have fraction : numeral.fraction ≠ [] := by
      intro empty
      exact parts ⟨empty, none⟩
    simp [text, pointText, exponentText, none, fraction]

/-- A numeral that is no integer, with more digits, ends before everything that
starts neither a digit nor an exponent. -/
theorem endsBefore_appendDigits
    {numeral : Numeral}
    {digits rest : Text}
    (parts : ¬numeral.IsInteger)
    (valid : Text.IsDigits digits)
    (noDigit : Text.startsWithDigit rest = false)
    (noExponent : startsExponent rest = false) :
    (numeral.appendDigits digits valid).EndsBefore rest where
  digit := noDigit
  exponent := fun _ => noExponent
  fraction := by
    unfold appendDigits
    split
    next => exact nofun
    next none =>
      have fraction : numeral.fraction ≠ [] := by
        intro empty
        exact parts ⟨empty, none⟩
      simp [fraction]

/-- A fraction without digits before its point. -/
def ofFraction
    (fraction : Text)
    (valid : Text.IsDigits fraction)
    (nonempty : fraction ≠ []) :
    Numeral :=
  ⟨[], [], fraction, none, Or.inl rfl, fun _ member => absurd member List.not_mem_nil, valid,
    Or.inr nonempty⟩

end Numeral

end CssRescale
