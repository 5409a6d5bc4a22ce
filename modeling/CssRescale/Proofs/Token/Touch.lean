import CssRescale.Proofs.Token.Fuse
import CssRescale.Proofs.Token.Opaque

/-!
Contract: which tokens stand directly behind one another.

A token is as long as its kind allows. So where it ends nothing starts that it would have
taken in: no white space behind white space, and neither a word nor a number behind a word.
A number goes on over digits, by its numeral or by its unit, and only the percent sign ends
it before them.

Owns:
- what stands behind white space, words and numbers;
- tokens that touch in some text;
- the kinds of tokens that touch.
-/

set_option autoImplicit false

namespace CssRescale.Token

open Text (headIs startsWithDigit)

/-! ## Kinds -/

namespace Kind

def all : List Kind :=
  [.number, .string, .comment, .word, .operator, .openParen, .closeParen, .comma, .space]

theorem mem_all (kind : Kind) : kind ∈ all := by
  cases kind <;> decide

/-- A token of the first kind goes on over what starts one of the second. -/
def takesIn : Kind → Kind → Bool
  | .space, .space => true
  | .word, .word => true
  | .word, .number => true
  | _, _ => false

end Kind

theorem isNumber_of_kind {token : Token} (isNumber : token.kind = .number) :
    token.isNumber = true := by
  cases token with
  | number => rfl
  | _ => cases isNumber

/-! ## What stands behind a token -/

section

variable
  {state : UrlState}
  {source left : Text}
  {token : Token}

/-- The body of a URL is looked for behind a parenthesis only. -/
theorem after_ne_opened (noParen : token.kind ≠ .openParen) : state.after token left ≠ .opened := by
  rw [Ne, after_eq_opened_iff]
  rintro ⟨rfl, -⟩
  exact noParen rfl

theorem isBlank_behind_space
    (reading : next? state source = some (token, left))
    (isSpace : token.kind = .space) :
    headIs isBlank left = false := by
  obtain ⟨first, rest, rfl, starts⟩ := exists_starts_of_next? reading (by rw [isSpace]; decide)
  have behind : (readSpace (first :: rest)).2 = left :=
    congrArg Prod.snd (starts.of_space isSpace).2
  rw [← behind]
  exact Text.headIs_dropWhile isBlank _

/-- Behind a word there is nothing, or a character that ends words. -/
theorem endsWord_behind_word
    {raw : Text}
    (reading : next? state source = some (word raw, left)) :
    left = [] ∨ headIs endsWord left = true := by
  cases expected : expectedBody? state source with
  | none =>
      have read : (Text.takeEscaped endsWord source).2 = left :=
        congrArg Prod.snd (readWord_of_next? reading expected)
      have ends := Text.endsRun_takeEscaped endsWord source
      rw [read, endsRun_eq_headIs rfl, Bool.or_eq_true, List.isEmpty_iff] at ends
      exact ends
  | some parts =>
      -- Of the characters that end words only one ends the body of a URL.
      obtain ⟨body, remaining⟩ := parts
      have same := Option.some.inj ((next?_of_expected expected).symm.trans reading)
      obtain rfl : remaining = left := congrArg Prod.snd same
      rcases left_of_takeUrlBody? (takeUrlBody?_of_expectedBody? expected) with
        ended | ⟨rest, closes⟩
      · exact .inl ended
      · exact .inr (by rw [closes]; rfl)

/-- Only the percent sign ends a number before a digit. -/
theorem noDigit_behind_number
    (reading : next? state source = some (token, left))
    (isNumber : token.kind = .number)
    (noPercent : token.text.getLast? ≠ some '%') :
    startsWithDigit left = false := by
  apply startsWithDigit_of_absorbsDigit reading
  cases token with
  | number literal unit =>
      have other : unit ≠ ['%'] := by
        rintro rfl
        exact noPercent List.getLast?_concat
      simpa [absorbsDigit] using other
  | _ => cases isNumber

end

/-! ## Tokens that touch -/

/-- In some text one token stands directly behind the other. -/
def Touch (token next : Token) : Prop :=
  ∃ source before after, scan source = before ++ token :: next :: after

section

variable
  {token next : Token}
  (touch : Touch token next)

include touch

/-- Of two tokens that touch, each is read where the other ends. -/
theorem Touch.exists_next? :
    ∃ state source left remaining,
      next? state source = some (token, left) ∧
        next? (state.after token left) left = some (next, remaining) := by
  obtain ⟨source, before, after, split⟩ := touch
  obtain ⟨state, -, scanned⟩ := exists_reaches split
  obtain ⟨reading, rest⟩ := next?_of_scanFrom_eq_cons scanned
  exact ⟨state, _, _, _, reading, (next?_of_scanFrom_eq_cons rest).1⟩

/-- Behind a token that is no parenthesis the next one is what its first character starts. -/
theorem Touch.exists_starts (noParen : token.kind ≠ .openParen) :
    ∃ state source first rest remaining,
      next? state source = some (token, first :: rest) ∧
        Starts first rest (next, remaining) := by
  obtain ⟨state, source, left, remaining, reading, following⟩ := touch.exists_next?
  have closed : state.after token left ≠ .opened := after_ne_opened noParen
  rcases next?_cases following with ⟨body, -, expected⟩ | ⟨first, rest, rfl, -, starts⟩
  · simp [expectedBody?, closed] at expected
  · exact ⟨state, source, first, rest, remaining, reading, starts⟩

/-- The second token is of no kind that the first one takes in. -/
theorem Touch.takesIn_eq_false : token.kind.takesIn next.kind = false := by
  cases kind : token.kind with
  | space =>
      obtain ⟨state, source, first, rest, remaining, reading, starts⟩ :=
        touch.exists_starts (by rw [kind]; decide)
      have noBlank := isBlank_behind_space reading kind
      cases nextKind : next.kind with
      | space => exact absurd ((starts.of_space nextKind).1.symm.trans noBlank) nofun
      | _ => rfl
  | word =>
      obtain ⟨state, source, first, rest, remaining, reading, starts⟩ :=
        touch.exists_starts (by rw [kind]; decide)
      obtain ⟨raw, rfl⟩ : ∃ raw, token = .word raw := by
        cases token with
        | word raw => exact ⟨raw, rfl⟩
        | _ => cases kind
      have ends : endsWord first = true :=
        (endsWord_behind_word reading).resolve_left (List.cons_ne_nil first rest)
      cases nextKind : next.kind with
      | word => exact absurd (ends.symm.trans (starts.of_word nextKind).1) nofun
      | number =>
          have goesOn : endsWord first = false :=
            headIs_of_startsNumber avoidsNumbers_endsWord (starts.of_number nextKind).1
          exact absurd (ends.symm.trans goesOn) nofun
      | _ => rfl
  | _ => cases next.kind <;> rfl

/-- Of two numbers that touch, the second starts with a sign or a point, or the first ends in
the percent sign. -/
theorem Touch.of_numbers (isNumber : token.kind = .number) (isNumberToo : next.kind = .number) :
    (∃ c ∈ next.text.head?, c = '+' ∨ c = '-' ∨ c = '.') ∨ token.text.getLast? = some '%' := by
  obtain ⟨state, source, left, remaining, reading, following⟩ := touch.exists_next?
  have closed : state.after token left ≠ .opened := after_ne_opened (by rw [isNumber]; decide)
  have starts := (isNumber_of_next? closed following).symm.trans (isNumber_of_kind isNumberToo)
  obtain ⟨first, tail, shape⟩ := List.exists_cons_of_ne_nil (next?_text_ne_nil following)
  rw [← next?_append following, shape] at starts
  rw [or_iff_not_imp_right, shape]
  intro noPercent
  have noDigit := noDigit_behind_number reading isNumber noPercent
  rw [← next?_append following, shape] at noDigit
  refine ⟨first, rfl, ?_⟩
  rcases first_of_startsNumber starts with digit | point | sign
  · exact absurd (digit.symm.trans noDigit) nofun
  · exact .inr (.inr point)
  · simp only [isSign, Bool.or_eq_true, beq_iff_eq] at sign
    exact sign.imp_right .inl

end

/-! ## Kinds that touch -/

/-- A text that is one token of the kind. -/
def specimen : Kind → Text
  | .number => ['1', '%']
  | .string => ['"', '"']
  | .comment => ['/', '*', '*', '/']
  | .word => ['#']
  | .operator => ['/']
  | .openParen => ['(']
  | .closeParen => [')']
  | .comma => [',']
  | .space => [' ']

/-- Two specimens, one behind the other, are both read unless the first takes in the second. -/
theorem kinds_specimens :
    ∀ first ∈ Kind.all, ∀ second ∈ Kind.all, first.takesIn second = false →
      (scan (specimen first ++ specimen second)).map kind = [first, second] := by
  decide +kernel

/-- Kinds touch in some text unless the first takes in the second. -/
theorem exists_touch_iff (first second : Kind) :
    (∃ token next, Touch token next ∧ token.kind = first ∧ next.kind = second) ↔
      first.takesIn second = false := by
  constructor
  · rintro ⟨token, next, touch, rfl, rfl⟩
    exact touch.takesIn_eq_false
  · intro apart
    have read := kinds_specimens first first.mem_all second second.mem_all apart
    obtain ⟨token, others, tokens, isFirst, rest⟩ := List.map_eq_cons_iff.mp read
    obtain ⟨next, after, rfl, isSecond, -⟩ := List.map_eq_cons_iff.mp rest
    exact ⟨token, next, ⟨_, [], after, tokens⟩, isFirst, isSecond⟩

/-- Tokens are maximal. Tokens of all kinds touch in some text, but not white space and white
space, nor a word and a word or number behind it. Two numbers touch only where the second
starts with a sign or a point, or the first ends in the percent sign. So a number stands
directly behind tokens of all kinds but words. -/
theorem touch_kinds :
    (∀ first second,
        (∃ token next, Touch token next ∧ token.kind = first ∧ next.kind = second) ↔
          ¬(first = .space ∧ second = .space) ∧
            ¬(first = .word ∧ (second = .word ∨ second = .number))) ∧
      (∀ token next, Touch token next → token.kind = .number → next.kind = .number →
        (∃ c ∈ next.text.head?, c = '+' ∨ c = '-' ∨ c = '.') ∨ token.text.getLast? = some '%') ∧
      ∀ kind,
        (∃ token next, Touch token next ∧ token.kind = kind ∧ next.kind = .number) ↔
          kind ∈ [.number, .string, .comment, .operator, .openParen, .closeParen, .comma,
            .space] := by
  refine ⟨fun first second => ?kinds, fun token next touch => touch.of_numbers, fun kind => ?behind⟩
  case kinds =>
    rw [exists_touch_iff]
    cases first <;> cases second <;> decide
  case behind =>
    rw [exists_touch_iff]
    cases kind <;> decide

/-- A number behind one with the percent sign, and a number with a sign behind one whose unit
ends in an escaped character. -/
theorem touch_kinds_numbers :
    Touch (number ['5'] ['%']) (number ['5'] []) ∧
      (number ['5'] ['%']).text.getLast? = some '%' ∧
      Touch (number ['1'] "p\\é".toList) (number ['+', '2'] []) ∧
      ∃ c ∈ (number ['+', '2'] []).text.head?, c = '+' ∨ c = '-' ∨ c = '.' := by
  have percent : Touch (number ['5'] ['%']) (number ['5'] []) :=
    ⟨"5%5".toList, [], [], by decide +kernel⟩
  have sign : Touch (number ['1'] "p\\é".toList) (number ['+', '2'] []) :=
    ⟨"1p\\é+2".toList, [], [], by decide +kernel⟩
  obtain ⟨-, numbers, -⟩ := touch_kinds
  exact ⟨percent, (numbers _ _ percent rfl rfl).resolve_left (by simp [text]), sign,
    (numbers _ _ sign rfl rfl).resolve_right (by decide)⟩

end CssRescale.Token
