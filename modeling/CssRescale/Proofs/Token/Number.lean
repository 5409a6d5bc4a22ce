import CssRescale.Proofs.Token.Resume

/-!
Contract: where number tokens end, and that they end there again.

A number token is a numeral and a unit. The numeral ends where none of its parts
goes on, the unit where no identifier goes on.

Owns:
- the two parts of every number token, and what is known of the text after them;
- plain units, which are taken whole wherever no identifier goes on;
- the law that a number token is read again before every text alike the one after
  it, and the one exception to it, an exponent.
-/

set_option autoImplicit false

namespace CssRescale.Token

open Text (headIs headIs_append endsRun takeEscaped startsWithDigit startsWithDigit_eq)
open Numeral (startsFraction startsExponent)

/-! ## Steps that read a number -/

theorem startsNumber_numeral (numeral : Numeral) (rest : Text) :
    startsNumber (numeral.text ++ rest) = true := by
  have unsigned := numeral.startsWithSign_unsigned (numeral.exponentText ++ rest)
  have sign := Text.takeSign_run numeral.sign_valid unsigned
  simp only [Numeral.text, List.append_assoc, startsNumber_eq, sign]
  cases whole : numeral.whole with
  | nil =>
      have fraction : numeral.fraction ≠ [] := by
        rcases numeral.digits_ne_nil with nonempty | nonempty
        · exact absurd whole nonempty
        · exact nonempty
      have digits := Text.startsWithDigit_append numeral.fraction_valid fraction
        (numeral.exponentText ++ rest)
      simp [Numeral.pointText, fraction, startsFraction, digits]
  | cons first tail =>
      have digit : first.isDigit = true := numeral.whole_valid first (by simp [whole])
      simp [startsWithDigit, digit]

/-- A text in which no number starts is not the text of a number. -/
theorem isNumber_of_text
    {token : Token}
    (reads : token.ReadsNumeral)
    (noNumber : startsNumber token.text = false) :
    token.isNumber = false := by
  cases token with
  | number literal unit =>
      obtain ⟨numeral, rfl⟩ := reads literal unit rfl
      rw [text, startsNumber_numeral] at noNumber
      cases noNumber
  | _ => rfl

/-- Where a number starts, no body of a URL is expected. -/
theorem ne_opened_of_next?
    {state : UrlState}
    {source literal unit left : Text}
    (reading : next? state source = some (number literal unit, left)) :
    state ≠ .opened := by
  intro equal
  subst equal
  have starts := (startsNumber_of_next? reading).1
  rcases next?_cases reading with ⟨body, isWord, _⟩ | ⟨first, rest, rfl, unexpected, _⟩
  · cases isWord
  · have none : takeUrlBody? (first :: rest) = Option.none := by
      simpa [expectedBody?] using unexpected
    rw [takeUrlBody?_eq_none_iff,
      dropWhile_of_headIs (headIs_of_startsNumber avoidsNumbers_isBlank starts),
      headIs_of_startsNumber avoidsNumbers_quotesBody starts] at none
    simp at none

/-- A number token is a numeral and a unit, both taken as far as they go. -/
theorem exists_numeral_of_next?
    {state : UrlState}
    {source literal unit left : Text}
    (reading : next? state source = some (number literal unit, left)) :
    ∃ numeral : Numeral,
      literal = numeral.text ∧ numeral.EndsBefore (unit ++ left) ∧
        takeUnit (unit ++ left) = (unit, left) := by
  obtain ⟨starts, read⟩ := startsNumber_of_next? reading
  obtain ⟨numeral, taken, ends⟩ := takeLiteral_numeral starts
  simp only [readNumber, Prod.mk.injEq, Token.number.injEq] at read
  obtain ⟨⟨rfl, rfl⟩, rfl⟩ := read
  rw [takeUnit_append]
  exact ⟨numeral, taken, ends, rfl⟩

theorem next?_numeral
    {state : UrlState}
    {numeral : Numeral}
    {rest : Text}
    (closed : state ≠ .opened)
    (ends : numeral.EndsBefore rest) :
    next? state (numeral.text ++ rest) =
      some (number numeral.text (takeUnit rest).1, (takeUnit rest).2) := by
  have starts := startsNumber_numeral numeral rest
  have read : readNumber (numeral.text ++ rest) =
      (number numeral.text (takeUnit rest).1, (takeUnit rest).2) := by
    simp only [readNumber, takeLiteral_text ends]
  cases whole : numeral.text ++ rest with
  | nil =>
      rw [whole] at starts
      cases starts
  | cons first tail =>
      rw [whole] at starts read
      refine next?_of_starts (by simp [expectedBody?, closed]) ?_
      rw [← read]
      exact .number starts

/-! ## Units -/

/-- The characters that units start with, besides a backslash. -/
def startsIdentifier (c : Char) : Bool := c.isAlpha || c == '_' || isNonAscii c

theorem takeUnit_cases
    {source unit left : Text}
    (taking : takeUnit source = (unit, left)) :
    (unit = [] ∧ source = left ∧ headIs (· == '%') left = false ∧ startsUnit left = false) ∨
      unit = ['%'] ∨
      (startsUnit source = true ∧ takeIdentifier source = (unit, left)) := by
  unfold takeUnit at taking
  split at taking
  next rest =>
    simp only [Prod.mk.injEq] at taking
    exact Or.inr (Or.inl taking.1.symm)
  next noPercent =>
    split at taking
    next starts => exact Or.inr (Or.inr ⟨starts, taking⟩)
    next noUnit =>
      simp only [Prod.mk.injEq] at taking
      obtain ⟨rfl, rfl⟩ := taking
      rw [Bool.not_eq_true] at noUnit
      refine Or.inl ⟨rfl, rfl, ?_, noUnit⟩
      cases source with
      | nil => rfl
      | cons first rest => exact beq_false_of_ne fun percent => noPercent rest (by rw [percent])

theorem takeUnit_of_startsUnit
    {source : Text}
    (starts : startsUnit source = true) :
    takeUnit source = takeIdentifier source := by
  unfold takeUnit
  split
  next rest => exact absurd starts (by simp [startsUnit]; decide)
  next => rw [if_pos starts]

theorem continuesIdentifier_of_startsIdentifier
    {c : Char}
    (starts : startsIdentifier c = true) :
    continuesIdentifier c = true := by
  simp only [startsIdentifier, Bool.or_eq_true] at starts
  simp only [continuesIdentifier, Char.isAlphanum, Bool.or_eq_true]
  rcases starts with (letter | underscore) | wide
  · exact Or.inl (Or.inl (Or.inl (Or.inl letter)))
  · exact Or.inl (Or.inl (Or.inr underscore))
  · exact Or.inr wide

theorem startsUnit_cons (first : Char) (rest : Text) :
    startsUnit (first :: rest) =
      (startsIdentifier first || (first == '\\' && !rest.isEmpty)) := by
  unfold startsUnit
  split
  next same => cases same
  next same =>
    simp only [List.cons.injEq] at same
    obtain ⟨rfl, rfl⟩ := same
    rfl
  next first' rest' lone same =>
    simp only [List.cons.injEq] at same
    obtain ⟨rfl, rfl⟩ := same
    cases rest with
    | nil =>
        have other : first ≠ '\\' := by
          intro backslash
          exact lone backslash rfl
        simp [startsIdentifier, other]
    | cons second tail => simp [startsIdentifier]

/-- A character that no number starts with and no numeral goes on with, an exponent apart. -/
structure StartsUnit (c : Char) : Prop where
  noDigit : c.isDigit = false
  noPoint : c ≠ '.'
  noPercent : c ≠ '%'

theorem StartsUnit.of_startsIdentifier
    {c : Char}
    (starts : startsIdentifier c = true) :
    StartsUnit c where
  noDigit := by
    apply isDigit_of_followsDash
    simp only [startsIdentifier, Bool.or_eq_true] at starts
    simp only [followsDash, Bool.or_eq_true]
    rcases starts with (letter | underscore) | wide
    · exact Or.inl (Or.inl (Or.inl letter))
    · exact Or.inl (Or.inr underscore)
    · exact Or.inr wide
  noPoint := by
    intro equal
    subst equal
    exact absurd starts (by decide)
  noPercent := by
    intro equal
    subst equal
    exact absurd starts (by decide)

/-- A unit that was taken as an identifier starts a unit before every text. -/
theorem exists_first_of_takeIdentifier
    {source unit left : Text}
    (starts : startsUnit source = true)
    (taken : takeIdentifier source = (unit, left)) :
    ∃ first tail, unit = first :: tail ∧ StartsUnit first ∧
      ∀ rest, startsUnit (unit ++ rest) = true := by
  cases source with
  | nil => cases starts
  | cons first source =>
      rw [startsUnit_cons, Bool.or_eq_true] at starts
      rcases starts with identifier | escape
      · have goesOn : endsIdentifier first = false := by
          rw [endsIdentifier, continuesIdentifier_of_startsIdentifier identifier]
          rfl
        have nonempty := Text.takeEscaped_ne_nil source goesOn
        have whole := Text.takeEscaped_append endsIdentifier (first :: source)
        rw [takeIdentifier_eq] at taken
        rw [taken] at nonempty whole
        obtain ⟨head, tail, shape⟩ := List.exists_cons_of_ne_nil nonempty
        simp only at shape whole
        subst shape
        obtain rfl : head = first := (List.cons.inj whole).1
        refine ⟨head, tail, rfl, .of_startsIdentifier identifier, fun rest => ?_⟩
        rw [List.cons_append, startsUnit_cons, identifier]
        rfl
      · rw [Bool.and_eq_true, beq_iff_eq] at escape
        obtain ⟨rfl, more⟩ := escape
        cases source with
        | nil => cases more
        | cons second source =>
            simp only [takeIdentifier, takeEscaped, Prod.mk.injEq] at taken
            obtain ⟨rfl, _⟩ := taken
            exact ⟨_, _, rfl, ⟨rfl, by decide, by decide⟩, fun rest => rfl⟩

theorem Alike.startsUnit_eq
    {left rest : Text}
    (alike : Alike left rest) :
    startsUnit left = startsUnit rest := by
  cases alike with
  | ended => rfl
  | @same first left rest single _ =>
      have ends : left.isEmpty = rest.isEmpty := by
        rw [Bool.eq_iff_iff, List.isEmpty_iff, List.isEmpty_iff]
        exact single
      rw [startsUnit_cons, startsUnit_cons, ends]

theorem takeUnit_of_no_unit
    {source : Text}
    (noPercent : headIs (· == '%') source = false)
    (noUnit : startsUnit source = false) :
    takeUnit source = ([], source) := by
  unfold takeUnit
  split
  next => cases noPercent
  next => simp [noUnit]

theorem takeUnit_eq_of_fst {unit rest : Text} (same : (takeUnit (unit ++ rest)).1 = unit) :
    takeUnit (unit ++ rest) = (unit, rest) := by
  have whole := takeUnit_append (unit ++ rest)
  rw [same] at whole
  exact Prod.ext same (List.append_cancel_left whole)

/-- After a unit other than the percent sign no identifier goes on. -/
theorem endsRun_of_takeUnit
    {unit left : Text}
    (taking : takeUnit (unit ++ left) = (unit, left))
    (nonempty : unit ≠ [])
    (noPercent : unit ≠ ['%']) :
    endsRun endsIdentifier left = true := by
  rcases takeUnit_cases taking with ⟨none, _⟩ | percent | ⟨_, taken⟩
  · exact absurd none nonempty
  · exact absurd percent noPercent
  · have stopped := Text.endsRun_takeEscaped endsIdentifier (unit ++ left)
    rw [takeIdentifier_eq] at taken
    rw [taken] at stopped
    exact stopped

/-- A unit is taken again before a text alike the one after it; the percent sign before every text. -/
theorem takeUnit_resume
    {unit left rest : Text}
    (taking : takeUnit (unit ++ left) = (unit, left))
    (apart : unit ≠ ['%'] → Alike left rest) :
    takeUnit (unit ++ rest) = (unit, rest) := by
  rcases takeUnit_cases taking with ⟨rfl, _, noPercent, noUnit⟩ | rfl | ⟨starts, taken⟩
  · have alike := apart (by simp)
    exact takeUnit_of_no_unit (alike.headIs_eq _ ▸ noPercent) (alike.startsUnit_eq ▸ noUnit)
  · rfl
  · obtain ⟨first, tail, shape, starter, startsAgain⟩ := exists_first_of_takeIdentifier starts taken
    have noPercent : unit ≠ ['%'] := by
      intro percent
      exact starter.noPercent (List.cons.inj (shape.symm.trans percent)).1
    have alike := apart noPercent
    have ends : endsRun endsIdentifier rest = true := by
      rw [← alike.endsRun_eq]
      exact endsRun_of_takeUnit taking (by simp [shape]) noPercent
    rw [takeIdentifier_eq] at taken
    have ended : (takeEscaped endsIdentifier (unit ++ left)).2 = [] → rest = [] := by
      rw [taken]
      intro equal
      subst equal
      exact alike.eq_nil
    have again := takeEscaped_resume ends ended
    rw [taken] at again
    rw [takeUnit_of_startsUnit (startsAgain rest)]
    exact again

/-! ## Plain units -/

/-- A plain identifier that no exponent starts. -/
structure IsPlainUnit (unit : Text) : Prop where
  starts : headIs startsIdentifier unit = true
  continues : ∀ c ∈ unit, continuesIdentifier c = true
  exponent : startsExponent unit = false

theorem IsPlainUnit.exists_first {unit : Text} (plain : IsPlainUnit unit) :
    ∃ first tail, unit = first :: tail ∧ StartsUnit first := by
  have starts := plain.starts
  cases unit with
  | nil => cases starts
  | cons first tail => exact ⟨first, tail, rfl, .of_startsIdentifier starts⟩

theorem IsPlainUnit.ne_nil {unit : Text} (plain : IsPlainUnit unit) : unit ≠ [] := by
  intro equal
  subst equal
  cases plain.starts

theorem IsPlainUnit.ne_percent {unit : Text} (plain : IsPlainUnit unit) : unit ≠ ['%'] := by
  intro equal
  subst equal
  exact absurd plain.starts (by decide)

/-- The unit of a plain identifier goes on as long as the identifier does. -/
theorem IsPlainUnit.takeUnit
    {unit rest : Text}
    (plain : IsPlainUnit unit)
    (ends : endsRun endsIdentifier rest = true) :
    takeUnit (unit ++ rest) = (unit, rest) := by
  have starts : startsUnit (unit ++ rest) = true := by
    have first := plain.starts
    cases unit with
    | nil => cases first
    | cons head tail =>
        have identifier : startsIdentifier head = true := first
        rw [List.cons_append, startsUnit_cons, identifier]
        rfl
  rw [takeUnit_of_startsUnit starts, takeIdentifier_eq]
  refine Text.takeEscaped_plain (fun c member => ?_) ends
  have goesOn : endsIdentifier c = false := by
    rw [endsIdentifier, plain.continues c member]
    rfl
  refine ⟨goesOn, ?_⟩
  rintro rfl
  exact absurd goesOn (by decide)

/-! ## Numerals -/

/-- The text after a number without exponent makes one of its unit, which is one letter. -/
def JoinsExponent (token : Token) (rest : Text) : Prop :=
  ∃ (literal : Text) (mark : Char),
    token = number literal [mark] ∧ literal.any isExponentMark = false ∧
      isExponentMark mark = true ∧ startsWithDigit (Text.takeSign rest).2 = true

/-- A unit and a text make no exponent if they made none before another text, no
digit starts the text, and none starts it after a sign where the unit is one letter. -/
theorem startsExponent_append
    {numeral : Numeral}
    {unit left rest : Text}
    (noExponent : numeral.exponent? = none)
    (nonempty : unit ≠ [])
    (before : startsExponent (unit ++ left) = false)
    (noDigit : startsWithDigit rest = false)
    (single : ¬(number numeral.text unit).JoinsExponent rest) :
    startsExponent (unit ++ rest) = false := by
  match unit with
  | [] => exact absurd rfl nonempty
  | [mark] =>
      cases valid : isExponentMark mark with
      | false => simp [startsExponent, valid]
      | true =>
          cases digit : startsWithDigit (Text.takeSign rest).2 with
          | false => simp [startsExponent, digit]
          | true =>
              have noMark : numeral.text.any isExponentMark = false := by
                rw [Numeral.any_isExponentMark_text, noExponent]
                rfl
              exact absurd ⟨numeral.text, mark, rfl, noMark, valid, digit⟩ single
  | [mark, second] =>
      by_cases signed : isSign second = true
      · simp [startsExponent, Text.takeSign, signed, noDigit]
      · simp only [List.cons_append, List.nil_append, startsExponent, Text.takeSign, signed] at before ⊢
        exact before
  | mark :: second :: third :: others =>
      by_cases signed : isSign second = true
      · simp only [List.cons_append, startsExponent, Text.takeSign, signed] at before ⊢
        exact before
      · simp only [List.cons_append, startsExponent, Text.takeSign, signed] at before ⊢
        exact before

theorem startsWithDigit_of_endsRun
    {rest : Text}
    (ends : endsRun endsIdentifier rest = true) :
    startsWithDigit rest = false := by
  cases rest with
  | nil => rfl
  | cons first rest =>
      cases digit : first.isDigit with
      | false => exact digit
      | true =>
          have backslash : first ≠ '\\' := by
            intro equal
            subst equal
            exact absurd digit (by decide)
          have stops : endsIdentifier first = true := by simpa [endsRun, backslash] using ends
          simp [endsIdentifier, continuesIdentifier, Char.isAlphanum, digit] at stops

/-- A numeral ends before a unit that is no exponent with the text after it. -/
theorem endsBefore_unit
    {numeral : Numeral}
    {first : Char}
    {unit : Text}
    (starter : StartsUnit first)
    (exponent : numeral.exponent? = none → startsExponent (first :: unit) = false) :
    numeral.EndsBefore (first :: unit) where
  digit := starter.noDigit
  exponent := exponent
  fraction := fun _ _ => Numeral.startsFraction_of_ne starter.noPoint unit

/-- A numeral ends again before its unit and a text alike the one after it, if
these make no exponent; before the percent sign it always ends. -/
theorem endsBefore_resume
    {numeral : Numeral}
    {unit left rest : Text}
    (ends : numeral.EndsBefore (unit ++ left))
    (taking : takeUnit (unit ++ left) = (unit, left))
    (apart : unit ≠ ['%'] → Alike left rest)
    (single : ¬(number numeral.text unit).JoinsExponent rest) :
    numeral.EndsBefore (unit ++ rest) := by
  rcases takeUnit_cases taking with ⟨rfl, _, _, noUnit⟩ | rfl | ⟨starts, taken⟩
  · have alike := apart (by simp)
    refine ⟨?_, fun _ => ?_, fun none noFraction => ?_⟩
    · rw [List.nil_append, startsWithDigit_eq, ← alike.headIs_eq, ← startsWithDigit_eq]
      exact ends.digit
    · rw [alike.startsUnit_eq] at noUnit
      cases rest with
      | nil => rfl
      | cons first rest =>
          rw [startsUnit_cons, Bool.or_eq_false_iff] at noUnit
          have noMark : isExponentMark first = false := by
            cases mark : isExponentMark first with
            | false => rfl
            | true =>
                simp only [isExponentMark, Bool.or_eq_true, beq_iff_eq] at mark
                rcases mark with rfl | rfl <;> exact absurd noUnit.1 (by decide)
          simp [startsExponent, noMark]
    · rw [List.nil_append, ← alike.startsFraction_eq]
      exact ends.fraction none noFraction
  · exact ⟨rfl, fun _ => rfl, fun _ _ => rfl⟩
  · obtain ⟨first, tail, rfl, starter, _⟩ := exists_first_of_takeIdentifier starts taken
    have noPercent : first :: tail ≠ ['%'] := by
      intro percent
      exact starter.noPercent (List.cons.inj percent).1
    have noDigit : startsWithDigit rest = false := by
      rw [startsWithDigit_eq, ← (apart noPercent).headIs_eq, ← startsWithDigit_eq]
      exact startsWithDigit_of_endsRun (endsRun_of_takeUnit taking (by simp) noPercent)
    apply endsBefore_unit starter
    intro none
    exact startsExponent_append none (by simp) (ends.exponent none) noDigit single

/-! ## Number tokens again -/

/-- A number token is read again before a text alike the one after it. -/
theorem next?_number_resume
    {state : UrlState}
    {source literal unit left rest : Text}
    (reading : next? state source = some (number literal unit, left))
    (apart : unit ≠ ['%'] → Alike left rest)
    (single : ¬(number literal unit).JoinsExponent rest) :
    next? state (literal ++ (unit ++ rest)) = some (number literal unit, rest) := by
  obtain ⟨numeral, rfl, ends, taking⟩ := exists_numeral_of_next? reading
  rw [next?_numeral (ne_opened_of_next? reading) (endsBefore_resume ends taking apart single),
    takeUnit_resume taking apart]

/-- Another numeral with a plain unit is read in the place of a number token. -/
theorem next?_plain
    {state : UrlState}
    {numeral : Numeral}
    {unit rest : Text}
    (closed : state ≠ .opened)
    (plain : IsPlainUnit unit)
    (ends : endsRun endsIdentifier rest = true)
    (single : ¬(number numeral.text unit).JoinsExponent rest) :
    next? state (numeral.text ++ (unit ++ rest)) = some (number numeral.text unit, rest) := by
  have endsBefore : numeral.EndsBefore (unit ++ rest) := by
    have before : startsExponent (unit ++ []) = false := by simpa using plain.exponent
    have noDigit := startsWithDigit_of_endsRun ends
    obtain ⟨first, tail, rfl, starter⟩ := plain.exists_first
    exact endsBefore_unit starter fun none =>
      startsExponent_append none plain.ne_nil before noDigit single
  rw [next?_numeral closed endsBefore, plain.takeUnit ends]

/-- Every token is read again before a text that resumes where the text after it
stood, if no digit came after a token that takes in digits, and the text makes no
exponent of a unit. -/
theorem next?_again
    {state : UrlState}
    {source left rest : Text}
    {token : Token}
    (reading : next? state source = some (token, left))
    (resumes : Resumes left rest)
    (apart : token.absorbsDigit = true → Alike left rest)
    (single : ¬token.JoinsExponent rest) :
    next? state (token.text ++ rest) = some (token, rest) := by
  cases number : token.isNumber with
  | false => exact next?_resume reading number resumes apart
  | true =>
      cases token with
      | number literal unit =>
          rw [text, List.append_assoc]
          refine next?_number_resume reading (fun other => apart ?_) single
          simpa [absorbsDigit] using other
      | _ => cases number

end CssRescale.Token
