import CssRescale.Proofs.Binary64.Equality
import CssRescale.Proofs.Decimal.Numeral
import CssRescale.Proofs.Token.Replace

/-!
Contract: what becomes of a token when a digit comes directly after it.

A sign becomes part of a number, an exclamation mark takes the digit into its
name, and a number takes it into its numeral or its unit. Only a number with a
fraction or an exponent and without a unit may stay the number that it was: it
takes the digits before the point of its neighbour, and neither value may change.

Owns:
- what agrees between two tokens that are the same but for the spelling of numbers;
- when two neighbours fuse;
- what is read where a rewritten number that starts with a digit comes directly
  after another number.

Does not own: what holds along a run of tokens.
-/

set_option autoImplicit false

namespace CssRescale.Token

open Text (headIs endsRun takeEscaped startsWithDigit startsWithDigit_eq takeDigits takeSign)
open Numeral (startsFraction startsExponent)

/-! ## Agreement -/

/-- Two literals of one value, where infinities are the largest finite numbers. -/
def SameValue (left right : Text) : Prop :=
  ∃ leftValue rightValue : Binary64,
    Decimal.read? left = some leftValue ∧ Decimal.read? right = some rightValue ∧
      Binary64.equal leftValue.saturate rightValue.saturate = true

/-- The same token, or two numbers of one unit and one value. -/
def Agrees : Token → Token → Prop
  | number literal unit, number otherLiteral otherUnit =>
      unit = otherUnit ∧ SameValue literal otherLiteral
  | token, other => token = other

/-- The second number loses the digits before its point to the first one, and
neither value changes. -/
def Respells : Token → Token → Prop
  | number literal unit, number next _ =>
      unit = [] ∧ literal.any Numeral.marksPart = true ∧
        startsFraction (takeDigits next).2 = true ∧
        SameValue (literal ++ (takeDigits next).1) literal ∧ SameValue (takeDigits next).2 next
  | _, _ => False

/-- A token takes in a digit of the number that comes directly after it, and is
not the token that it was, or the number is not. -/
def Fuses (token next : Token) : Prop :=
  token.absorbsDigit = true ∧ next.isNumber = true ∧ startsWithDigit next.text = true ∧
    ¬Respells token next

theorem SameValue.numeral_iff (left right : Numeral) :
    SameValue left.text right.text ↔
      Binary64.equal left.value.saturate right.value.saturate = true := by
  simp only [SameValue, Numeral.read?_text, Option.some.injEq]
  constructor
  · rintro ⟨_, _, rfl, rfl, same⟩
    exact same
  · intro same
    exact ⟨_, _, rfl, rfl, same⟩

theorem SameValue.numeral (numeral : Numeral) : SameValue numeral.text numeral.text :=
  (numeral_iff numeral numeral).mpr
    (Binary64.equal_saturate (Binary64.equal_self numeral.isNan_value))

theorem Agrees.refl {token : Token} (reads : token.ReadsNumeral) : Agrees token token := by
  cases token with
  | number literal unit =>
      obtain ⟨numeral, rfl⟩ := reads literal unit rfl
      exact ⟨rfl, .numeral numeral⟩
  | _ => exact rfl

/-- A token that agrees with a token other than a number is that token. -/
theorem Agrees.eq_of_other
    {token other : Token}
    (agrees : Agrees token other)
    (noNumber : other.isNumber = false) :
    token = other := by
  cases other with
  | number => cases noNumber
  | _ => cases token <;> exact agrees

/-! ## No digit comes after a token that takes it in -/

theorem startsWithDigit_of_absorbsDigit
    {state : UrlState}
    {source left : Text}
    {token : Token}
    (reading : next? state source = some (token, left))
    (absorbs : token.absorbsDigit = true) :
    startsWithDigit left = false := by
  cases token with
  | number literal unit =>
      obtain ⟨numeral, _, ends, taking⟩ := exists_numeral_of_next? reading
      have noPercent : unit ≠ ['%'] := by simpa [absorbsDigit] using absorbs
      by_cases nonempty : unit = []
      · subst nonempty
        exact ends.digit
      · exact startsWithDigit_of_endsRun (endsRun_of_takeUnit taking nonempty noPercent)
  | operator raw =>
      obtain ⟨first, rest, rfl, starts⟩ := exists_starts_of_next? reading (by simp [kind])
      rcases starts.of_operator rfl with result | ⟨operator, noNumber, result⟩
      · have behind : (readMark rest).2 = left := congrArg Prod.snd result
        rw [← behind]
        exact startsWithDigit_of_endsRun (Text.endsRun_takeEscaped endsIdentifier rest)
      · simp only [Prod.mk.injEq, Token.operator.injEq] at result
        obtain ⟨rfl, rfl⟩ := result
        have signed : isSign first = true := by
          simp only [absorbsDigit, Bool.or_eq_true, beq_iff_eq, List.cons.injEq, and_true,
            headIs] at absorbs
          rcases absorbs with (plus | minus) | mark
          · rw [plus]
            rfl
          · rw [minus]
            rfl
          · rw [mark] at operator
            cases operator
        rw [startsNumber_of_sign signed, Bool.or_eq_false_iff] at noNumber
        exact noNumber.1
  | _ => cases absorbs

/-! ## Rewritten tokens -/

/-- The tokens that conversion may write for a token: a rewritten number has no
exponent, and its unit starts none. -/
inductive Rewrites : Token → Token → Prop where
  | same {token : Token} : Rewrites token token
  | number {literal unit plainUnit : Text} {numeral : Numeral}
      (nonempty : unit ≠ [])
      (noPercent : unit ≠ ['%'])
      (plain : IsPlainUnit plainUnit)
      (noMark : headIs isExponentMark plainUnit = false)
      (noExponent : numeral.exponent? = none)
      (start : startsWithDigit numeral.text = true ∨
        headIs (· == '-') numeral.text = true ∧ headIs (· == '-') literal = true) :
      Rewrites (.number literal unit) (.number numeral.text plainUnit)

theorem Rewrites.replaces
    {token rewritten : Token}
    (rewrites : Rewrites token rewritten) :
    Replaces token rewritten := by
  cases rewrites with
  | same => exact .same
  | number nonempty noPercent plain _ _ start => exact .number nonempty noPercent plain start

/-- A text with a rewritten number in front that starts with a digit. -/
structure Front (rest : Text) where
  numeral : Numeral
  unit : Text
  left : Text
  rest_eq : rest = numeral.whole ++ (numeral.pointText ++ (unit ++ left))
  digit : startsWithDigit rest = true
  noSign : numeral.sign = []
  noExponent : numeral.exponent? = none
  plain : IsPlainUnit unit
  noMark : headIs isExponentMark unit = false

def Front.token {rest : Text} (front : Front rest) : Token := number front.numeral.text front.unit

/-- If a digit came to the front, a rewritten number brought it. -/
theorem exists_front
    {convert : Token → Token}
    {state : UrlState}
    {source left : Text}
    {token : Token}
    (reading : next? state source = some (token, left))
    (rewrites : Rewrites token (convert token))
    (before : startsWithDigit source = false)
    (rest : Text)
    (digit : startsWithDigit ((convert token).text ++ rest) = true) :
    token.isNumber = true ∧
      ∃ front : Front ((convert token).text ++ rest),
        front.token = convert token ∧ front.left = rest := by
  generalize convert token = rewritten at rewrites digit ⊢
  cases rewrites with
  | same =>
      have nonempty := next?_text_ne_nil reading
      rw [startsWithDigit_eq, Text.headIs_append _ nonempty] at digit
      rw [← next?_append reading, startsWithDigit_eq, Text.headIs_append _ nonempty, digit] at before
      cases before
  | @number literal unit plainUnit numeral nonempty noPercent plain noMark noExponent start =>
      have whole : (number numeral.text plainUnit).text ++ rest =
          numeral.sign ++ (numeral.whole ++ (numeral.pointText ++ (plainUnit ++ rest))) := by
        simp [text, Numeral.text, Numeral.exponentText, noExponent]
      have noSign : numeral.sign = [] := by
        rw [whole] at digit
        rcases numeral.sign_valid with none | plus | minus
        · exact none
        · rw [plus] at digit
          cases digit
        · rw [minus] at digit
          cases digit
      refine ⟨rfl, ⟨numeral, plainUnit, rest, ?_, digit, noSign, noExponent, plain, noMark⟩, rfl, rfl⟩
      rw [whole, noSign]
      rfl

section Front

variable {rest : Text} (front : Front rest)

include front

theorem Front.startsExponent_unit (tail : Text) : startsExponent (front.unit ++ tail) = false := by
  obtain ⟨first, others, shape, _⟩ := front.plain.exists_first
  have noMark : isExponentMark first = false := by
    have noMark := front.noMark
    rwa [shape] at noMark
  simp [shape, startsExponent, noMark]

/-- Every numeral ends before the unit of a rewritten number. -/
theorem Front.endsBefore (numeral : Numeral) (tail : Text) :
    numeral.EndsBefore (front.unit ++ tail) := by
  have noExponent := front.startsExponent_unit tail
  obtain ⟨first, others, shape, starter⟩ := front.plain.exists_first
  rw [shape] at noExponent ⊢
  exact endsBefore_unit starter fun _ => noExponent

theorem Front.startsWithDigit_pointText :
    startsWithDigit (front.numeral.pointText ++ (front.unit ++ front.left)) = false := by
  have ends := (front.endsBefore front.numeral front.left).startsWithDigit_pointText
  simpa [Numeral.exponentText, front.noExponent] using ends

/-- The digits in front of a rewritten number are those before its point. -/
theorem Front.takeDigits_eq :
    takeDigits rest =
      (front.numeral.whole, front.numeral.pointText ++ (front.unit ++ front.left)) := by
  have taken := Text.takeDigits_run front.numeral.whole_valid front.startsWithDigit_pointText
  rwa [← front.rest_eq] at taken

/-- After the digits in front of a rewritten number comes no exponent. -/
theorem Front.headIs_pointText :
    headIs isExponentMark (front.numeral.pointText ++ (front.unit ++ front.left)) = false := by
  unfold Numeral.pointText
  split
  next =>
    rw [List.nil_append, Text.headIs_append _ front.plain.ne_nil]
    exact front.noMark
  next => rfl

end Front

/-! ## Exponents -/

/-- If a unit becomes an exponent, the unit after the exponent is another one,
unless an exponent would come after it. -/
theorem unit_ne_of_exponent
    {state : UrlState}
    {numeral : Numeral}
    {unit rest literal otherUnit left : Text}
    (closed : state ≠ .opened)
    (noExponent : numeral.exponent? = none)
    (nonempty : unit ≠ [])
    (exponent : startsExponent (unit ++ rest) = true)
    (after : headIs isExponentMark (takeExponent (unit ++ rest)).2 = false)
    (reading : next? state (numeral.text ++ (unit ++ rest)) =
      some (number literal otherUnit, left)) :
    otherUnit ≠ unit := by
  intro equal
  subst equal
  rcases takeExponent_exponent (otherUnit ++ rest) with ⟨_, absent⟩ | ⟨present, taken, noDigit⟩
  · rw [exponent] at absent
    cases absent
  · have whole := takeExponent_append (otherUnit ++ rest)
    rw [taken] at whole
    generalize (takeExponent (otherUnit ++ rest)).2 = remaining at after noDigit whole
    have longer : ({ numeral with exponent? := some present } : Numeral).text ++ remaining =
        numeral.text ++ (otherUnit ++ rest) := by
      rw [← whole]
      simp [Numeral.text, Numeral.exponentText, Numeral.pointText, noExponent]
    have ends : ({ numeral with exponent? := some present } : Numeral).EndsBefore remaining := by
      refine ⟨noDigit, ?_, ?_⟩
      all_goals
        intro absent
        cases absent
    have read := next?_numeral closed ends
    rw [longer, reading] at read
    simp only [Option.some.injEq, Prod.mk.injEq, Token.number.injEq] at read
    -- The same unit would start what is left, and it starts an exponent.
    have split := takeUnit_append remaining
    rw [← read.1.2] at split
    obtain ⟨mark, tail, shape⟩ := List.exists_cons_of_ne_nil nonempty
    have isMark : isExponentMark mark = true := by
      rw [shape, List.cons_append, startsExponent, Bool.and_eq_true] at exponent
      exact exponent.1
    rw [← split, shape, List.cons_append, headIs, isMark] at after
    cases after

/-- An exponent that comes about by a digit ends with the digits. -/
theorem takeExponent_digit
    {unit left rest : Text}
    (nonempty : unit ≠ [])
    (before : startsExponent (unit ++ left) = false)
    (exponent : startsExponent (unit ++ rest) = true)
    (digit : startsWithDigit rest = true) :
    (takeExponent (unit ++ rest)).2 = (takeDigits rest).2 := by
  have unsigned : takeSign rest = ([], rest) :=
    Text.takeSign_run (Or.inl rfl) (Text.startsWithSign_of_digit digit)
  match unit with
  | [] => exact absurd rfl nonempty
  | [mark] =>
      simp only [List.singleton_append, startsExponent, unsigned] at exponent
      simp only [List.singleton_append, takeExponent, unsigned, exponent, if_true]
  | [mark, second] =>
      by_cases signed : isSign second = true
      · simp only [List.cons_append, List.nil_append, startsExponent, takeSign, signed,
          if_true] at exponent
        simp only [List.cons_append, List.nil_append, takeExponent, takeSign, signed, exponent,
          if_true]
      · simp only [List.cons_append, List.nil_append, startsExponent, takeSign, signed]
          at before exponent
        exact absurd (before.symm.trans exponent) (by decide)
  | mark :: second :: third :: others =>
      by_cases signed : isSign second = true
      · simp only [List.cons_append, startsExponent, takeSign, signed] at before exponent
        exact absurd (before.symm.trans exponent) (by decide)
      · simp only [List.cons_append, startsExponent, takeSign, signed] at before exponent
        exact absurd (before.symm.trans exponent) (by decide)

/-! ## Numbers that a digit follows -/

/-- A unit other than the percent sign that a digit follows is another unit. -/
theorem unit_ne_of_digit
    {state : UrlState}
    {numeral : Numeral}
    {first : Char}
    {tail rest literal otherUnit left : Text}
    (closed : state ≠ .opened)
    (starter : StartsUnit first)
    (before : numeral.exponent? = none → ∃ left, startsExponent (first :: tail ++ left) = false)
    (front : Front rest)
    (reading : next? state (numeral.text ++ (first :: tail ++ rest)) =
      some (number literal otherUnit, left)) :
    otherUnit ≠ first :: tail := by
  by_cases exponent :
      numeral.exponent? = none ∧ startsExponent (first :: tail ++ rest) = true
  · obtain ⟨left', before⟩ := before exponent.1
    refine unit_ne_of_exponent closed exponent.1 (by simp) exponent.2 ?_ reading
    rw [takeExponent_digit (by simp) before exponent.2 front.digit, front.takeDigits_eq]
    exact front.headIs_pointText
  · intro equal
    subst equal
    have ends : numeral.EndsBefore (first :: tail ++ rest) := by
      apply endsBefore_unit starter
      intro none
      rw [← Bool.not_eq_true]
      intro present
      exact exponent ⟨none, present⟩
    rw [next?_numeral closed ends] at reading
    simp only [Option.some.injEq, Prod.mk.injEq, Token.number.injEq] at reading
    have taking := takeUnit_eq_of_fst reading.1.2
    have noPercent : first :: tail ≠ ['%'] := by
      intro percent
      exact starter.noPercent (List.cons.inj percent).1
    have noDigit := startsWithDigit_of_endsRun (endsRun_of_takeUnit taking (by simp) noPercent)
    rw [front.digit] at noDigit
    cases noDigit

/-- A plain unit is not lost, whatever follows it. -/
theorem takeUnit_fst_ne_nil
    {unit : Text}
    (plain : IsPlainUnit unit)
    (rest : Text) :
    (takeUnit (unit ++ rest)).1 ≠ [] := by
  have starts := plain.starts
  cases unit with
  | nil => cases starts
  | cons first tail =>
      have identifier : startsIdentifier first = true := starts
      have startsUnit : startsUnit (first :: (tail ++ rest)) = true := by
        rw [startsUnit_cons, identifier]
        rfl
      have goesOn : endsIdentifier first = false := by
        rw [endsIdentifier, continuesIdentifier_of_startsIdentifier identifier]
        rfl
      rw [List.cons_append, takeUnit_of_startsUnit startsUnit, takeIdentifier_eq]
      exact Text.takeEscaped_ne_nil _ goesOn

theorem startsExponent_of_headIs
    {source : Text}
    (noMark : headIs isExponentMark source = false) :
    startsExponent source = false := by
  cases source with
  | nil => rfl
  | cons first rest =>
      have noMark : isExponentMark first = false := noMark
      simp [startsExponent, noMark]

/-- Tokens do not agree if the first one that is read does not. -/
theorem not_forall₂_of_reading
    {state : UrlState}
    {source left : Text}
    {token other : Token}
    (reading : next? state source = some (token, left))
    (disagrees : ¬Agrees token other)
    (tokens : List Token) :
    ¬List.Forall₂ Agrees (scanFrom state source) (other :: tokens) := by
  rw [scanFrom_of_next? reading, List.forall₂_cons]
  intro agrees
  exact disagrees agrees.1

section Respelled

variable {state : UrlState} {numeral : Numeral} {rest : Text} (front : Front rest)

include front

theorem Front.text_numeral :
    front.numeral.text = front.numeral.whole ++ front.numeral.pointText := by
  simp [Numeral.text, Numeral.exponentText, front.noSign, front.noExponent]

theorem Front.takeDigits_text :
    takeDigits front.numeral.text = (front.numeral.whole, front.numeral.pointText) := by
  have ends : startsWithDigit front.numeral.pointText = false := by
    unfold Numeral.pointText
    split <;> rfl
  rw [front.text_numeral]
  exact Text.takeDigits_run front.numeral.whole_valid ends

/-- An integer without unit becomes one number with the number after it. -/
theorem Front.not_forall₂_integer
    (closed : state ≠ .opened)
    (integer : numeral.IsInteger)
    (tokens : List Token) :
    ¬List.Forall₂ Agrees (scanFrom state (numeral.text ++ rest))
      (number numeral.text [] :: tokens) := by
  have joined : numeral.text ++ rest =
      (numeral.join front.numeral).text ++ (front.unit ++ front.left) := by
    rw [Numeral.text_join integer]
    conv => lhs; rw [front.rest_eq]
    simp
  have reading := next?_numeral closed (front.endsBefore (numeral.join front.numeral) front.left)
  rw [← joined] at reading
  apply not_forall₂_of_reading reading
  intro agrees
  exact takeUnit_fst_ne_nil front.plain front.left agrees.1

/-- A numeral with a fraction or an exponent, and no unit, takes the digits
before the point of the number after it. -/
theorem Front.next?_appendDigits
    (closed : state ≠ .opened)
    (parts : ¬numeral.IsInteger) :
    next? state (numeral.text ++ rest) =
      some (number (numeral.text ++ front.numeral.whole)
          (takeUnit (front.numeral.pointText ++ (front.unit ++ front.left))).1,
        (takeUnit (front.numeral.pointText ++ (front.unit ++ front.left))).2) := by
  have ends := Numeral.endsBefore_appendDigits parts front.numeral.whole_valid
    front.startsWithDigit_pointText (startsExponent_of_headIs front.headIs_pointText)
  have reading := next?_numeral closed ends
  rw [Numeral.text_appendDigits parts] at reading
  have longer : numeral.text ++ rest = numeral.text ++ front.numeral.whole ++
      (front.numeral.pointText ++ (front.unit ++ front.left)) := by
    conv => lhs; rw [front.rest_eq]
    simp
  rw [longer]
  exact reading

/-- The next number keeps what is left of it and its unit. -/
theorem Front.scanFrom_fraction
    (fraction : front.numeral.fraction ≠ []) :
    ∃ unit tokens,
      scanFrom .outside (front.numeral.pointText ++ (front.unit ++ front.left)) =
          number front.numeral.pointText unit :: tokens ∧
        scanFrom .outside rest = number front.numeral.text unit :: tokens := by
  have point : front.numeral.pointText = '.' :: front.numeral.fraction := by
    simp [Numeral.pointText, fraction]
  have fractionText :
      (Numeral.ofFraction front.numeral.fraction front.numeral.fraction_valid fraction).text =
        front.numeral.pointText := by
    simp [Numeral.text, Numeral.ofFraction, Numeral.pointText, Numeral.exponentText, fraction]
  have closed : UrlState.outside ≠ .opened := by decide
  have short := next?_numeral closed (front.endsBefore
    (Numeral.ofFraction front.numeral.fraction front.numeral.fraction_valid fraction) front.left)
  have long := next?_numeral closed (front.endsBefore front.numeral front.left)
  rw [fractionText] at short
  rw [front.text_numeral, List.append_assoc, ← front.rest_eq, ← front.text_numeral] at long
  refine ⟨_, _, scanFrom_of_next? short, scanFrom_of_next? long⟩

/-- A rewritten number after a number without unit agrees if it is respelled. -/
theorem Front.forall₂_agrees_iff
    (closed : state ≠ .opened)
    (tokens : List Token) :
    List.Forall₂ Agrees (scanFrom state (numeral.text ++ rest))
        (number numeral.text [] :: front.token :: tokens) ↔
      Respells (number numeral.text []) front.token ∧
        List.Forall₂ Agrees (scanFrom .outside rest) (front.token :: tokens) := by
  have digits := front.takeDigits_text
  have respells : Respells (number numeral.text []) front.token ↔
      ¬numeral.IsInteger ∧ startsFraction front.numeral.pointText = true ∧
        SameValue (numeral.text ++ front.numeral.whole) numeral.text ∧
        SameValue front.numeral.pointText front.numeral.text := by
    simp only [Front.token, Respells, digits, Numeral.any_marksPart_text, true_and]
  rw [respells]
  by_cases integer : numeral.IsInteger
  · have disagree := front.not_forall₂_integer closed integer (front.token :: tokens)
    exact iff_of_false disagree fun both => both.1.1 integer
  have reading := front.next?_appendDigits closed integer
  by_cases noFraction : front.numeral.fraction = []
  · have noPoint : front.numeral.pointText = [] := by simp [Numeral.pointText, noFraction]
    refine iff_of_false (not_forall₂_of_reading reading (fun agrees => ?_) _) fun both => ?_
    · rw [noPoint, List.nil_append] at agrees
      exact takeUnit_fst_ne_nil front.plain front.left agrees.1
    · have starts := both.1.2.1
      rw [noPoint] at starts
      cases starts
  · obtain ⟨unit, rest', short, long⟩ := front.scanFrom_fraction noFraction
    have point : front.numeral.pointText = '.' :: front.numeral.fraction := by
      simp [Numeral.pointText, noFraction]
    have starts : startsFraction front.numeral.pointText = true := by
      have digit := Text.startsWithDigit_append front.numeral.fraction_valid noFraction []
      rw [point]
      simpa [startsFraction] using digit
    have noUnit : takeUnit (front.numeral.pointText ++ (front.unit ++ front.left)) =
        ([], front.numeral.pointText ++ (front.unit ++ front.left)) := by
      rw [point, List.cons_append]
      exact takeUnit_of_no_unit rfl (by rw [startsUnit_cons]; rfl)
    rw [noUnit] at reading
    rw [scanFrom_of_next? reading, after_of_isNumber rfl, short, long]
    simp only [List.forall₂_cons, Front.token, Agrees, integer, starts, not_false_eq_true, true_and,
      SameValue.numeral front.numeral, and_true]
    constructor
    · rintro ⟨first, ⟨same, second⟩, others⟩
      exact ⟨⟨first, second⟩, same, others⟩
    · rintro ⟨⟨first, second⟩, same, others⟩
      exact ⟨first, ⟨same, second⟩, others⟩

end Respelled

end CssRescale.Token
