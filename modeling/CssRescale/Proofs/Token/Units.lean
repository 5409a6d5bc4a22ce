import CssRescale.Proofs.Token.Number
import CssRescale.Proofs.Token.Reached

/-!
Contract: the grammar of units.

    unit       = nothing | "%" | identifier
    identifier = (start | escape) (start | digit | "-" | escape)*
    start      = letter | "_" | non-ASCII
    escape     = "\" any

A number token is a numeral and the longest unit behind it, and where it has no unit no
digit follows either.

Owns:
- the grammar, as predicates on texts;
- the longest identifier and the longest unit that a text starts with;
- the parts of every number token of a text.

Does not own: the values of numbers.
-/

set_option autoImplicit false

namespace CssRescale.Token

open Text (headIs takeEscaped startsWithDigit startsWithDigit_eq)

/-! ## The grammar -/

/-- The part of an identifier behind its start. -/
inductive GoesOnIdentifier : Text → Prop where
  | ended : GoesOnIdentifier []
  | plain {c : Char} {rest : Text}
      (continues : continuesIdentifier c = true)
      (goesOn : GoesOnIdentifier rest) :
      GoesOnIdentifier (c :: rest)
  | escape {c : Char} {rest : Text}
      (goesOn : GoesOnIdentifier rest) :
      GoesOnIdentifier ('\\' :: c :: rest)

inductive IsIdentifier : Text → Prop where
  | plain {c : Char} {rest : Text}
      (starts : startsIdentifier c = true)
      (goesOn : GoesOnIdentifier rest) :
      IsIdentifier (c :: rest)
  | escape {c : Char} {rest : Text}
      (goesOn : GoesOnIdentifier rest) :
      IsIdentifier ('\\' :: c :: rest)

inductive IsUnit : Text → Prop where
  | nothing : IsUnit []
  | percent : IsUnit ['%']
  | identifier {unit : Text} (isIdentifier : IsIdentifier unit) : IsUnit unit

theorem IsIdentifier.goesOn {unit : Text} (isIdentifier : IsIdentifier unit) :
    GoesOnIdentifier unit := by
  cases isIdentifier with
  | plain starts goesOn => exact .plain (continuesIdentifier_of_startsIdentifier starts) goesOn
  | escape goesOn => exact .escape goesOn

theorem GoesOnIdentifier.append
    {run : Text}
    {c : Char}
    (goesOn : GoesOnIdentifier run)
    (continues : continuesIdentifier c = true) :
    GoesOnIdentifier (run ++ [c]) := by
  induction goesOn with
  | ended => exact .plain continues .ended
  | plain first _ inductionHypothesis => exact .plain first inductionHypothesis
  | escape _ inductionHypothesis => exact .escape inductionHypothesis

theorem IsIdentifier.append
    {unit : Text}
    {c : Char}
    (isIdentifier : IsIdentifier unit)
    (continues : continuesIdentifier c = true) :
    IsIdentifier (unit ++ [c]) := by
  cases isIdentifier with
  | plain starts goesOn => exact .plain starts (goesOn.append continues)
  | escape goesOn => exact .escape (goesOn.append continues)

/-! ## The longest identifier -/

theorem goesOnIdentifier_takeEscaped (source : Text) :
    GoesOnIdentifier (takeEscaped endsIdentifier source).1 := by
  fun_induction takeEscaped endsIdentifier source with
  | case1 => exact .ended
  | case2 escaped rest taken left taking inductionHypothesis =>
      rw [taking] at inductionHypothesis
      exact .escape inductionHypothesis
  | case3 => exact .ended
  | case4 first rest _ goesOn taken left taking inductionHypothesis =>
      rw [taking] at inductionHypothesis
      exact .plain (by simpa [endsIdentifier] using goesOn) inductionHypothesis

/-- Nothing longer that a text starts with goes on an identifier. -/
theorem GoesOnIdentifier.prefix_takeEscaped
    {candidate source : Text}
    (goesOn : GoesOnIdentifier candidate)
    (starts : candidate <+: source) :
    candidate <+: (takeEscaped endsIdentifier source).1 := by
  induction goesOn generalizing source with
  | ended => exact List.nil_prefix
  | @plain c rest continues _ inductionHypothesis =>
      obtain ⟨tail, rfl⟩ := starts
      have ordinary : c ≠ '\\' := by
        rintro rfl
        exact absurd continues (by decide)
      have shorter := inductionHypothesis (List.prefix_append rest tail)
      rw [List.cons_append, takeEscaped]
      · simpa [endsIdentifier, continues] using shorter
      · exact fun _ _ backslash _ => ordinary backslash
  | @escape c rest _ inductionHypothesis =>
      obtain ⟨tail, rfl⟩ := starts
      have shorter := inductionHypothesis (List.prefix_append rest tail)
      simpa [takeEscaped] using shorter

theorem isIdentifier_of_takeIdentifier
    {source unit left : Text}
    (starts : startsUnit source = true)
    (taken : takeIdentifier source = (unit, left)) :
    IsIdentifier unit := by
  rw [takeIdentifier_eq] at taken
  cases source with
  | nil => cases starts
  | cons first rest =>
      have goesOn := goesOnIdentifier_takeEscaped rest
      rw [startsUnit_cons, Bool.or_eq_true] at starts
      rcases starts with identifier | escape
      · have continues := continuesIdentifier_of_startsIdentifier identifier
        have ordinary : first ≠ '\\' := by
          rintro rfl
          exact absurd identifier (by decide)
        rw [takeEscaped] at taken
        · simp only [endsIdentifier, continues, Bool.not_true, Bool.false_eq_true, if_false,
            Prod.mk.injEq] at taken
          rw [← taken.1]
          exact .plain identifier goesOn
        · exact fun _ _ backslash _ => ordinary backslash
      · rw [Bool.and_eq_true, beq_iff_eq] at escape
        obtain ⟨rfl, more⟩ := escape
        cases rest with
        | nil => cases more
        | cons second rest =>
            simp only [takeEscaped, Prod.mk.injEq] at taken
            rw [← taken.1]
            exact .escape (goesOnIdentifier_takeEscaped rest)

/-! ## The longest unit -/

theorem IsIdentifier.startsUnit
    {unit : Text}
    (isIdentifier : IsIdentifier unit)
    (rest : Text) :
    startsUnit (unit ++ rest) = true := by
  cases isIdentifier with
  | plain starts _ => rw [List.cons_append, startsUnit_cons, starts, Bool.true_or]
  | escape _ => rfl

theorem startsIdentifier_percent : startsIdentifier '%' = false := by decide

/-- What is taken is a unit, and no longer text in front is one. -/
theorem isUnit_takeUnit
    {source unit left : Text}
    (taking : takeUnit source = (unit, left)) :
    IsUnit unit ∧ ∀ candidate, candidate <+: source → IsUnit candidate → candidate <+: unit := by
  rcases takeUnit_cases taking with ⟨rfl, rfl, noPercent, noUnit⟩ | rfl | ⟨starts, taken⟩
  · refine ⟨.nothing, fun candidate starts isUnit => ?_⟩
    obtain ⟨tail, rfl⟩ := starts
    cases isUnit with
    | nothing => exact List.prefix_rfl
    | percent => exact absurd noPercent (by simp [headIs])
    | identifier isIdentifier =>
        exact Bool.noConfusion (noUnit.symm.trans (isIdentifier.startsUnit tail))
  · have whole := takeUnit_append source
    rw [taking] at whole
    subst whole
    refine ⟨.percent, fun candidate starts isUnit => ?_⟩
    cases isUnit with
    | nothing => exact List.nil_prefix
    | percent => exact List.prefix_rfl
    | identifier isIdentifier =>
        obtain ⟨tail, same⟩ := starts
        have unit := isIdentifier.startsUnit tail
        rw [same, List.singleton_append, startsUnit_cons, startsIdentifier_percent] at unit
        exact absurd unit (by simp)
  · refine ⟨.identifier (isIdentifier_of_takeIdentifier starts taken),
      fun candidate isPrefix isUnit => ?_⟩
    have longest : (takeEscaped endsIdentifier source).1 = unit := congrArg Prod.fst taken
    cases isUnit with
    | nothing => exact List.nil_prefix
    | percent =>
        obtain ⟨tail, rfl⟩ := isPrefix
        rw [List.singleton_append, startsUnit_cons, startsIdentifier_percent] at starts
        exact absurd starts (by simp)
    | identifier isIdentifier =>
        exact longest ▸ isIdentifier.goesOn.prefix_takeEscaped isPrefix

/-! ## Number tokens -/

/-- What stands before the text is a number token: a numeral and the longest unit behind it.
So the text behind it starts with no character that would have gone on with the unit, or
with the digits where there is no unit. -/
structure IsNumberBefore (following literal unit : Text) : Prop where
  isNumeral : ∃ numeral : Numeral, literal = numeral.text
  isUnit : IsUnit unit
  longest : ∀ candidate, candidate <+: unit ++ following → IsUnit candidate → candidate <+: unit
  bare : unit = [] → ∀ c ∈ following.head?,
    c.isDigit = false ∧ c ≠ '%' ∧ startsIdentifier c = false
  ended : IsIdentifier unit → ∀ c ∈ following.head?, continuesIdentifier c = false

theorem isNumberBefore_of_next?
    {state : UrlState}
    {source literal unit left : Text}
    (reading : next? state source = some (number literal unit, left)) :
    IsNumberBefore left literal unit := by
  obtain ⟨numeral, rfl, ends, taking⟩ := exists_numeral_of_next? reading
  obtain ⟨isUnit, longest⟩ := isUnit_takeUnit taking
  refine ⟨⟨numeral, rfl⟩, isUnit, longest, ?bare, ?ended⟩
  case bare =>
    rintro rfl c head
    obtain ⟨tail, rfl⟩ := List.head?_eq_some_iff.mp head
    have longest := longest [c] (List.prefix_append [c] tail)
    refine ⟨ends.digit, ?_, ?_⟩
    · rintro rfl
      exact absurd (longest .percent) (by simp)
    · rw [← Bool.not_eq_true]
      intro starts
      exact absurd (longest (.identifier (.plain starts .ended))) (by simp)
  case ended =>
    intro isIdentifier c head
    obtain ⟨tail, rfl⟩ := List.head?_eq_some_iff.mp head
    rw [← Bool.not_eq_true]
    intro continues
    have longer := longest (unit ++ [c]) (by simp) (.identifier (isIdentifier.append continues))
    exact absurd longer.length_le (by simp)

end CssRescale.Token
