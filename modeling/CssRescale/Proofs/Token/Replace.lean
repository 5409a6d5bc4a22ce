import CssRescale.Proofs.Token.Number
import Mathlib.Data.List.Chain

/-!
Contract: scans of texts in which numbers were replaced.

A number with a unit may be replaced by a numeral that starts with a digit, or
with a minus sign where there was one, and has a plain unit.

Owns:
- the relation `Replaces` between tokens, and what a text of replaced tokens
  looks like from the token before it;
- the scan of a text of replaced tokens in which no number stands directly after
  a token that takes in digits.
-/

set_option autoImplicit false

namespace CssRescale.Token

open Text (headIs headIs_append endsRun takeEscaped startsWithDigit startsWithDigit_eq)
open Numeral (startsFraction startsExponent)

theorem exists_tail_of_headIs
    {c : Char}
    {source : Text}
    (head : headIs (· == c) source = true) :
    ∃ tail, source = c :: tail := by
  cases source with
  | nil => cases head
  | cons first tail => exact ⟨tail, by rw [eq_of_beq head]⟩

theorem startsWithParen_eq (source : Text) : startsWithParen source = headIs (· == '(') source := by
  unfold startsWithParen
  split
  next => rfl
  next shape =>
    cases source with
    | nil => rfl
    | cons first rest =>
        exact (beq_false_of_ne fun paren => shape rest (by rw [paren])).symm

/-! ## Replaced tokens -/

/-- The tokens that may stand in the place of a token. -/
inductive Replaces : Token → Token → Prop where
  | same {token : Token} : Replaces token token
  | number {literal unit plainUnit : Text} {numeral : Numeral}
      (nonempty : unit ≠ [])
      (noPercent : unit ≠ ['%'])
      (plain : IsPlainUnit plainUnit)
      (start : startsWithDigit numeral.text = true ∨
        headIs (· == '-') numeral.text = true ∧ headIs (· == '-') literal = true) :
      Replaces (.number literal unit) (.number numeral.text plainUnit)

theorem absorbsDigit_plain
    {unit : Text}
    (plain : IsPlainUnit unit)
    (literal : Text) :
    (number literal unit).absorbsDigit = true := by
  simpa [absorbsDigit] using plain.ne_percent

theorem Replaces.isNumber_eq
    {token replacement : Token}
    (replaces : Replaces token replacement) :
    replacement.isNumber = token.isNumber := by
  cases replaces <;> rfl

theorem Replaces.eq_of_other
    {token replacement : Token}
    (replaces : Replaces token replacement)
    (other : token.isNumber = false) :
    replacement = token := by
  cases replaces with
  | same => rfl
  | number => cases other

/-- After a token with one character that is a point stands nothing that starts with a digit. -/
theorem startsWithDigit_of_point
    {state : UrlState}
    {source left rest : Text}
    {token : Token}
    (reading : next? state source = some (token, left))
    (point : token.text = ['.'])
    (resumes : Resumes left rest) :
    startsWithDigit left = false ∧ startsWithDigit rest = false := by
  obtain ⟨stops, avoids, plain, ends⟩ :
      ∃ stops, AvoidsNumbers stops ∧ stops '\\' = false ∧ endsRun stops left = true := by
    rcases next?_cases reading with ⟨body, rfl, expected⟩ | ⟨first, source, rfl, _, starts⟩
    · have taken := takeUrlBody?_eq_some (takeUrlBody?_of_expectedBody? expected)
      have stopped := Text.endsRun_takeEscaped (· == ')') source
      rw [taken] at stopped
      exact ⟨_, avoidsNumbers_eq rfl rfl, rfl, stopped⟩
    · have whole := next?_append reading
      rw [point, List.singleton_append] at whole
      obtain ⟨rfl, rfl⟩ := List.cons.inj whole
      have plain : Plain '.' left := ⟨rfl, rfl, rfl, by decide, by decide, by decide, by decide⟩
      have read := starts.nextOf_eq
      rw [nextOf_of_plain plain] at read
      split at read
      next number =>
        -- The text of a number is more than a point.
        have noNumber := isNumber_of_text (readsNumeral_of_next? reading) (by rw [point]; rfl)
        rw [starts.isNumber_eq, number] at noNumber
        cases noNumber
      next =>
        have stopped := Text.endsRun_takeEscaped endsWord ('.' :: left)
        have remaining : (readWord ('.' :: left)).2 = left := congrArg Prod.snd read
        change (takeEscaped endsWord ('.' :: left)).2 = left at remaining
        rw [remaining] at stopped
        exact ⟨_, avoidsNumbers_endsWord, rfl, stopped⟩
  exact ⟨avoids.startsWithDigit plain ends,
    avoids.startsWithDigit plain (resumes.endsRun avoids plain ends)⟩

/-- The same token before texts of which one resumes where the other stood. -/
theorem alike_of_resumes
    {state : UrlState}
    {source left rest : Text}
    {token : Token}
    (reading : next? state source = some (token, left))
    (resumes : Resumes left rest) :
    Alike source (token.text ++ rest) := by
  have ended : left = [] ↔ rest = [] := by
    constructor
    · intro equal
      subst equal
      exact resumes.eq_nil
    · intro equal
      subst equal
      cases resumes with
      | alike alike =>
          cases alike
          rfl
      | digit _ digit => cases digit
  obtain ⟨first, tail, shape⟩ := List.exists_cons_of_ne_nil (next?_text_ne_nil reading)
  have whole := next?_append reading
  rw [shape] at whole ⊢
  rw [← whole]
  refine .same (by simp [ended]) ?_
  by_cases point : first = '.'
  · subst point
    cases tail with
    | cons second others => rfl
    | nil =>
        obtain ⟨before, after⟩ := startsWithDigit_of_point reading shape resumes
        exact before.trans after.symm
  · rw [Numeral.startsFraction_of_ne point, Numeral.startsFraction_of_ne point]

/-- A replaced number looks like a number, with a digit or its minus sign in front. -/
theorem resumes_number
    {state : UrlState}
    {source literal unit plainUnit left : Text}
    {numeral : Numeral}
    (reading : next? state source = some (number literal unit, left))
    (nonempty : unit ≠ [])
    (plain : IsPlainUnit plainUnit)
    (start : startsWithDigit numeral.text = true ∨
      headIs (· == '-') numeral.text = true ∧ headIs (· == '-') literal = true)
    (rest : Text) :
    Resumes source ((number numeral.text plainUnit).text ++ rest) := by
  show Resumes source (numeral.text ++ plainUnit ++ rest)
  rcases start with digit | ⟨minus, minusBefore⟩
  · refine .digit (startsNumber_of_next? reading).1 ?_
    cases shape : numeral.text with
    | nil =>
        rw [shape] at digit
        cases digit
    | cons first tail =>
        rw [shape] at digit
        exact digit
  · have whole := next?_append reading
    rw [text] at whole
    obtain ⟨tail, shape⟩ := exists_tail_of_headIs minus
    obtain ⟨tailBefore, rfl⟩ := exists_tail_of_headIs minusBefore
    rw [← whole, shape]
    refine .alike (.same (by simp [nonempty, plain.ne_nil]) ?_)
    rw [Numeral.startsFraction_of_ne (by decide), Numeral.startsFraction_of_ne (by decide)]

/-- Tokens and their replacements look the same to the token before them, except
that a digit may have come to the front. -/
theorem resumes_scanFrom
    {convert : Token → Token}
    {state : UrlState}
    {source : Text}
    (replaces : ∀ token ∈ scanFrom state source, Replaces token (convert token)) :
    Resumes source (concat ((scanFrom state source).map convert)) := by
  fun_induction scanFrom state source with
  | case1 state source ended =>
      cases source with
      | nil => exact .alike .ended
      | cons first rest =>
          obtain ⟨token, left, reading⟩ := exists_next? state (List.cons_ne_nil first rest)
          rw [reading] at ended
          cases ended
  | case2 state source token left reading inductionHypothesis =>
      have resumes := inductionHypothesis fun other member =>
        replaces other (List.mem_cons_of_mem token member)
      have first := replaces token List.mem_cons_self
      show Resumes source ((convert token).text ++ concat ((scanFrom _ left).map convert))
      generalize concat ((scanFrom _ left).map convert) = rest at resumes ⊢
      generalize convert token = replacement at first ⊢
      cases first with
      | same => exact .alike (alike_of_resumes reading resumes)
      | @number literal unit plainUnit numeral nonempty noPercent plain start =>
          exact resumes_number reading nonempty plain start rest

/-! ## Steps -/

/-- A replaced token is read where the token was, with what is left replaced as well. -/
theorem next?_replaced
    {state : UrlState}
    {source left rest : Text}
    {token replacement : Token}
    (reading : next? state source = some (token, left))
    (replaces : Replaces token replacement)
    (resumes : Resumes left rest)
    (apart : replacement.absorbsDigit = true → Alike left rest)
    (single : ¬replacement.JoinsExponent rest) :
    next? state (replacement.text ++ rest) = some (replacement, rest) := by
  cases replaces with
  | same => exact next?_again reading resumes apart single
  | @number literal unit plainUnit numeral nonempty noPercent plain start =>
      have ends : endsRun endsIdentifier rest = true := by
        obtain ⟨_, _, _, taking⟩ := exists_numeral_of_next? reading
        rw [← (apart (absorbsDigit_plain plain _)).endsRun_eq]
        exact endsRun_of_takeUnit taking nonempty noPercent
      rw [text, List.append_assoc]
      exact next?_plain (ne_opened_of_next? reading) plain ends single

/-- Replacing changes nothing about the state of a scan. -/
theorem after_replaced
    {token replacement : Token}
    {left rest : Text}
    (replaces : Replaces token replacement)
    (resumes : Resumes left rest)
    (state : UrlState) :
    state.after replacement rest = state.after token left := by
  cases replaces with
  | number => rfl
  | same =>
      cases token with
      | word raw =>
          have paren : startsWithParen left = startsWithParen rest := by
            have avoids : AvoidsNumbers (· == '(') := avoidsNumbers_eq rfl rfl
            rw [startsWithParen_eq, startsWithParen_eq]
            exact resumes.headIs_eq avoids
          simp only [UrlState.after, paren]
      | _ => rfl

/-! ## Runs -/

/-- The tokens that a number may join if it comes directly after them. -/
def joinsNumber : Token → Bool
  | number _ _ => true
  | operator raw => raw == ['+'] || raw == ['-'] || headIs (· == '!') raw
  | _ => false

/-- No number comes directly after a number, a sign or an exclamation mark. -/
def Delimited (tokens : List Token) : Prop :=
  tokens.IsChain fun token next => next.isNumber = true → token.joinsNumber = false

theorem joinsNumber_of_absorbsDigit
    {token : Token}
    (absorbs : token.absorbsDigit = true) :
    token.joinsNumber = true := by
  cases token with
  | number => rfl
  | operator raw => exact absorbs
  | _ => cases absorbs

theorem Replaces.joinsNumber_of_absorbsDigit
    {token replacement : Token}
    (replaces : Replaces token replacement)
    (absorbs : replacement.absorbsDigit = true) :
    token.joinsNumber = true := by
  cases replaces with
  | same => exact Token.joinsNumber_of_absorbsDigit absorbs
  | number => rfl

theorem joinsNumber_of_isNumber
    {token : Token}
    (number : token.isNumber = true) :
    token.joinsNumber = true := by
  cases token with
  | number => rfl
  | _ => cases number

theorem after_of_isNumber
    {token : Token}
    (number : token.isNumber = true)
    (state : UrlState)
    (left : Text) :
    state.after token left = .outside := by
  cases token with
  | number => rfl
  | _ => cases number

theorem startsNumber_of_head
    {state : UrlState}
    {source : Text}
    (closed : state ≠ .opened)
    (head : ∀ next ∈ (scanFrom state source).head?, next.isNumber = false) :
    startsNumber source = false := by
  cases source with
  | nil => rfl
  | cons first rest =>
      obtain ⟨token, left, reading⟩ := exists_next? state (List.cons_ne_nil first rest)
      rw [scanFrom_of_next? reading] at head
      rw [← isNumber_of_next? closed reading]
      exact head token rfl

/-- Where the first token is no number, or there is none, the text with replaced tokens is alike. -/
theorem alike_scanFrom
    {convert : Token → Token}
    {state : UrlState}
    {source : Text}
    (replaces : ∀ token ∈ scanFrom state source, Replaces token (convert token))
    (head : ∀ next ∈ (scanFrom state source).head?, next.isNumber = false) :
    Alike source (concat ((scanFrom state source).map convert)) := by
  cases source with
  | nil =>
      rw [scanFrom_nil]
      exact .ended
  | cons first rest =>
      obtain ⟨token, left, reading⟩ := exists_next? state (List.cons_ne_nil first rest)
      rw [scanFrom_of_next? reading] at replaces head ⊢
      have other := head token rfl
      have kept : convert token = token := (replaces token List.mem_cons_self).eq_of_other other
      have resumes := resumes_scanFrom fun next member =>
        replaces next (List.mem_cons_of_mem token member)
      show Alike _ ((convert token).text ++ concat ((scanFrom _ left).map convert))
      rw [kept]
      exact alike_of_resumes reading resumes

/-- If no number comes directly after a token that it may join, the replaced
tokens are the tokens of their text. -/
theorem scanFrom_replaced
    {convert : Token → Token}
    {state : UrlState}
    {source : Text}
    (replaces : ∀ token ∈ scanFrom state source, Replaces token (convert token))
    (delimited : Delimited (scanFrom state source)) :
    scanFrom state (concat ((scanFrom state source).map convert)) =
      (scanFrom state source).map convert := by
  fun_induction scanFrom state source with
  | case1 => exact scanFrom_nil _
  | case2 state source token left reading inductionHypothesis =>
      obtain ⟨boundary, delimitedRest⟩ := List.isChain_cons.mp delimited
      have replacesRest : ∀ next ∈ scanFrom (state.after token left) left,
          Replaces next (convert next) := by
        intro next member
        exact replaces next (List.mem_cons_of_mem token member)
      have scanned := inductionHypothesis replacesRest delimitedRest
      have resumes := resumes_scanFrom replacesRest
      have first := replaces token List.mem_cons_self
      have headOther : token.joinsNumber = true →
          ∀ next ∈ (scanFrom (state.after token left) left).head?, next.isNumber = false := by
        intro joins next isHead
        cases number : next.isNumber with
        | false => rfl
        | true =>
            rw [boundary next isHead number] at joins
            cases joins
      have reads : next? state ((convert token).text ++
            concat ((scanFrom (state.after token left) left).map convert)) =
          some (convert token, concat ((scanFrom (state.after token left) left).map convert)) := by
        refine next?_replaced reading first resumes (fun absorbs => ?_) ?_
        · exact alike_scanFrom replacesRest (headOther (first.joinsNumber_of_absorbsDigit absorbs))
        · -- A unit of one letter may not become an exponent: no number comes after it.
          rintro ⟨literal, mark, shape, _, _, digit⟩
          have isNumber : token.isNumber = true := by rw [← first.isNumber_eq, shape]; rfl
          have closed : state.after token left ≠ .opened := by
            rw [after_of_isNumber isNumber]
            decide
          have noNumber := startsNumber_of_head closed (by
            rw [scanned, List.head?_map]
            intro next isHead
            obtain ⟨original, originalHead, rfl⟩ := Option.map_eq_some_iff.mp isHead
            have member := List.mem_of_mem_head? originalHead
            rw [(replacesRest original member).isNumber_eq]
            exact headOther (joinsNumber_of_isNumber isNumber) original originalHead)
          rw [startsNumber_eq, digit] at noNumber
          cases noNumber
      show scanFrom state ((convert token).text ++ concat _) = _
      rw [scanFrom_of_next? reads, after_replaced first resumes, scanned]
      rfl

end CssRescale.Token
