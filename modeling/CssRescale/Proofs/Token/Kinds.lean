import CssRescale.Proofs.Token.Literal

/-!
Contract: which token starts where.

The kinds of tokens are told apart by conditions on the first characters that
exclude each other, so the choice of a reader has an inversion: each reader is
used exactly where its condition holds.

Owns:
- the relation `Token.Starts` between the text at hand and the token that is read from it,
  and its equivalence with the choice of the reader;
- the kinds of tokens, and the reader that took a token of a kind.
-/

set_option autoImplicit false

namespace CssRescale.Token

def startsComment : Text → Bool
  | '/' :: '*' :: _ => true
  | _ => false

/-- The token that is read from the text `first :: rest`, and what is left: one
rule for each kind of token. -/
inductive Starts : Char → Text → Token × Text → Prop where
  | space {first : Char} {rest : Text}
      (blank : isBlank first = true) :
      Starts first rest (readSpace (first :: rest))
  | string {first : Char} {rest : Text}
      (quote : isQuote first = true) :
      Starts first rest (readString first rest)
  | comment {body : Text} : Starts '/' ('*' :: body) (readComment body)
  | openParen {rest : Text} : Starts '(' rest (openParen, rest)
  | closeParen {rest : Text} : Starts ')' rest (closeParen, rest)
  | comma {rest : Text} : Starts ',' rest (comma, rest)
  | mark {rest : Text} : Starts '!' rest (readMark rest)
  | number {first : Char} {rest : Text}
      (number : startsNumber (first :: rest) = true) :
      Starts first rest (readNumber (first :: rest))
  | dashedWord {first : Char} {rest : Text}
      (dashed : startsDashedWord (first :: rest) = true) :
      Starts first rest (readWord (first :: rest))
  | operator {first : Char} {rest : Text}
      (operator : isOperator first = true)
      (noComment : startsComment (first :: rest) = false)
      (noNumber : startsNumber (first :: rest) = false)
      (noDash : startsDashedWord (first :: rest) = false) :
      Starts first rest (.operator [first], rest)
  | word {first : Char} {rest : Text}
      (goesOn : endsWord first = false)
      (noOperator : isOperator first = false)
      (noNumber : startsNumber (first :: rest) = false)
      (noDash : startsDashedWord (first :: rest) = false) :
      Starts first rest (readWord (first :: rest))

/-! ## The conditions exclude each other -/

/-- A number starts with a digit, a point or a sign. -/
theorem first_of_startsNumber
    {first : Char}
    {rest : Text}
    (number : startsNumber (first :: rest) = true) :
    first.isDigit = true ∨ first = '.' ∨ isSign first = true := by
  by_cases point : first = '.'
  · exact Or.inr (Or.inl point)
  by_cases signed : isSign first = true
  · exact Or.inr (Or.inr signed)
  · left
    have unsigned : Text.takeSign (first :: rest) = ([], first :: rest) := by
      simp [Text.takeSign, signed]
    rw [startsNumber_eq, unsigned, Numeral.startsFraction_of_ne point, Bool.or_false] at number
    exact number

theorem first_of_startsDashedWord
    {first : Char}
    {rest : Text}
    (dashed : startsDashedWord (first :: rest) = true) :
    first = '-' := by
  unfold startsDashedWord at dashed
  split at dashed
  · rename_i same
    simp only [List.cons.injEq] at same
    exact same.1
  · simp at dashed

/-- The characters that make a word of the hyphen before them. -/
def followsDash (c : Char) : Bool := c.isAlpha || c == '-' || c == '_' || isNonAscii c

theorem isDigit_of_followsDash {c : Char} (follows : followsDash c = true) : c.isDigit = false := by
  cases digit : c.isDigit with
  | false => rfl
  | true =>
      simp only [Char.isDigit, Bool.and_eq_true, decide_eq_true_eq, ge_iff_le,
        UInt32.le_iff_toNat_le] at digit
      have below : c.val.toNat ≤ 57 := digit.2
      have above : 48 ≤ c.val.toNat := digit.1
      simp only [followsDash, Bool.or_eq_true, beq_iff_eq] at follows
      rcases follows with ((letter | rfl) | rfl) | wide
      · rcases Bool.or_eq_true_iff.mp letter with upper | lower
        · have least := (of_decide_eq_true upper).1
          have : 65 ≤ c.val.toNat := UInt32.le_iff_toNat_le.mp least
          omega
        · have least := of_decide_eq_true (Bool.and_eq_true_iff.mp lower).1
          have : 97 ≤ c.val.toNat := UInt32.le_iff_toNat_le.mp least
          omega
      · exact absurd above (by decide)
      · exact absurd below (by decide)
      · simp only [isNonAscii, decide_eq_true_eq] at wide
        have : 128 ≤ c.val.toNat := wide
        omega

theorem isDigit_of_isAlpha {c : Char} (letter : c.isAlpha = true) : c.isDigit = false :=
  isDigit_of_followsDash (by simp [followsDash, letter])

theorem startsNumber_of_isAlpha
    {first : Char}
    (letter : first.isAlpha = true)
    (rest : Text) :
    startsNumber (first :: rest) = false := by
  cases number : startsNumber (first :: rest) with
  | false => rfl
  | true =>
      rcases first_of_startsNumber number with digit | point | sign
      · exact Bool.noConfusion (digit.symm.trans (isDigit_of_isAlpha letter))
      · exact absurd point (Text.ne_of_isAlpha letter rfl)
      · simp [isSign, Text.ne_of_isAlpha letter] at sign

/-- The character after the hyphen of a dashed word is neither a digit nor a point. -/
theorem startsNumber_of_startsDashedWord
    {source : Text}
    (dashed : startsDashedWord source = true) :
    startsNumber source = false := by
  unfold startsDashedWord at dashed
  split at dashed
  next second tail =>
    have noDigit : second.isDigit = false := isDigit_of_followsDash dashed
    have noPoint : second ≠ '.' := by
      intro equal
      subst equal
      exact absurd dashed (by decide)
    rw [startsNumber_eq]
    show (second.isDigit || Numeral.startsFraction (second :: tail)) = false
    rw [noDigit, Numeral.startsFraction_of_ne noPoint]
    rfl
  next => simp at dashed

/-- The first characters are those of a number, a word or a single operator. -/
structure Plain (first : Char) (rest : Text) : Prop where
  blank : isBlank first = false
  quote : isQuote first = false
  comment : startsComment (first :: rest) = false
  openParen : first ≠ '('
  closeParen : first ≠ ')'
  comma : first ≠ ','
  mark : first ≠ '!'

theorem ne_of_isQuote
    {quote other : Char}
    (isQuote : isQuote quote = true)
    (noQuote : CssRescale.isQuote other = false) :
    quote ≠ other := by
  rintro rfl
  exact absurd (isQuote.symm.trans noQuote) nofun

/-- A digit is none of the characters with a meaning of their own. -/
theorem ne_of_isDigit {c other : Char} (digit : c.isDigit = true) (noDigit : other.isDigit = false) :
    c ≠ other := by
  intro equal
  subst equal
  rw [digit] at noDigit
  cases noDigit

theorem startsComment_of_ne {first : Char} (other : first ≠ '/') (rest : Text) :
    startsComment (first :: rest) = false := by
  rw [startsComment]
  intro _ same
  exact other (List.cons.inj same).1

theorem Plain.of_isDigit {first : Char} (digit : first.isDigit = true) (rest : Text) :
    Plain first rest where
  blank := by simp [isBlank, ne_of_isDigit digit]
  quote := by simp [isQuote, ne_of_isDigit digit]
  comment := startsComment_of_ne (ne_of_isDigit digit rfl) rest
  openParen := ne_of_isDigit digit rfl
  closeParen := ne_of_isDigit digit rfl
  comma := ne_of_isDigit digit rfl
  mark := ne_of_isDigit digit rfl

theorem isDigit_of_isSign {c : Char} (signed : isSign c = true) : c.isDigit = false := by
  simp only [isSign, Bool.or_eq_true, beq_iff_eq] at signed
  rcases signed with rfl | rfl
  · rfl
  · rfl

theorem Plain.of_isSign {first : Char} (signed : isSign first = true) (rest : Text) :
    Plain first rest := by
  simp only [isSign, Bool.or_eq_true, beq_iff_eq] at signed
  rcases signed with rfl | rfl
  · exact ⟨rfl, rfl, rfl, by decide, by decide, by decide, by decide⟩
  · exact ⟨rfl, rfl, rfl, by decide, by decide, by decide, by decide⟩

theorem Plain.of_startsNumber
    {first : Char}
    {rest : Text}
    (number : startsNumber (first :: rest) = true) :
    Plain first rest := by
  rcases first_of_startsNumber number with digit | rfl | signed
  · exact .of_isDigit digit rest
  · exact ⟨rfl, rfl, rfl, by decide, by decide, by decide, by decide⟩
  · exact .of_isSign signed rest

theorem Plain.of_isOperator
    {first : Char}
    {rest : Text}
    (operator : isOperator first = true)
    (noComment : startsComment (first :: rest) = false) :
    Plain first rest := by
  simp only [isOperator, Bool.or_eq_true, beq_iff_eq, or_assoc] at operator
  rcases operator with rfl | rfl | rfl | rfl | rfl | rfl | rfl | rfl | rfl
  all_goals exact ⟨rfl, rfl, noComment, by decide, by decide, by decide, by decide⟩

theorem Plain.of_endsWord
    {first : Char}
    (goesOn : endsWord first = false)
    (rest : Text) :
    Plain first rest := by
  simp only [endsWord, Bool.or_eq_false_iff, beq_eq_false_iff_ne] at goesOn
  obtain ⟨⟨⟨⟨⟨⟨⟨⟨⟨⟨⟨⟨blank, quote⟩, openParen⟩, closeParen⟩, comma⟩, slash⟩, mark⟩, _⟩, _⟩, _⟩, _⟩, _⟩, _⟩ :=
    goesOn
  exact ⟨blank, quote, startsComment_of_ne slash rest, openParen, closeParen, comma, mark⟩

/-- Plain characters start a number, a dashed word, an operator or a word, in this order. -/
theorem nextOf_of_plain
    {first : Char}
    {rest : Text}
    (plain : Plain first rest) :
    nextOf first rest =
      if startsNumber (first :: rest) then readNumber (first :: rest)
      else if startsDashedWord (first :: rest) then readWord (first :: rest)
      else if isOperator first then (operator [first], rest)
      else readWord (first :: rest) := by
  unfold nextOf
  rw [plain.blank, plain.quote]
  simp only [Bool.false_eq_true, if_false]
  split
  · exact absurd plain.comment (by simp [startsComment])
  · exact absurd rfl plain.openParen
  · exact absurd rfl plain.closeParen
  · exact absurd rfl plain.comma
  · exact absurd rfl plain.mark
  · rfl

/-! ## The choice of the reader -/

/-- The reader that is chosen is the one whose rule applies. -/
theorem starts_nextOf (first : Char) (rest : Text) : Starts first rest (nextOf first rest) := by
  unfold nextOf
  split
  next blank => exact .space blank
  next notBlank =>
  split
  next quote => exact .string quote
  next notQuote =>
  split
  · exact .comment
  · exact .openParen
  · exact .closeParen
  · exact .comma
  · exact .mark
  next notOpen notClose notComma notMark notComment =>
  split
  next number => exact .number number
  next noNumber =>
  split
  next dashed => exact .dashedWord dashed
  next noDash =>
  simp only [Bool.not_eq_true] at notBlank notQuote noNumber noDash
  split
  next operator =>
    refine .operator operator ?_ noNumber noDash
    unfold startsComment
    split
    next same =>
      simp only [List.cons.injEq] at same
      exact absurd same.2 (notComment _ same.1)
    next => rfl
  next noOperator =>
    rw [Bool.not_eq_true] at noOperator
    exact .word
      (endsWord_eq_false notBlank notQuote notOpen notClose notComma notMark noOperator)
      noOperator noNumber noDash

theorem Starts.nextOf_eq
    {first : Char}
    {rest : Text}
    {result : Token × Text}
    (starts : Starts first rest result) :
    nextOf first rest = result := by
  cases starts with
  | space blank => simp [nextOf, blank]
  | string quote =>
      have notBlank : isBlank first = false := by
        simp only [isQuote, Bool.or_eq_true, beq_iff_eq] at quote
        rcases quote with rfl | rfl <;> rfl
      simp [nextOf, notBlank, quote]
  | comment => rfl
  | openParen => rfl
  | closeParen => rfl
  | comma => rfl
  | mark => rfl
  | number number =>
      rw [nextOf_of_plain (.of_startsNumber number), if_pos number]
  | dashedWord dashed =>
      have plain : Plain first rest := by
        rw [first_of_startsDashedWord dashed]
        exact .of_isSign rfl rest
      simp [nextOf_of_plain plain, startsNumber_of_startsDashedWord dashed, dashed]
  | operator operator noComment noNumber noDash =>
      simp [nextOf_of_plain (.of_isOperator operator noComment), noNumber, noDash, operator]
  | word goesOn noOperator noNumber noDash =>
      simp [nextOf_of_plain (.of_endsWord goesOn rest), noNumber, noDash, noOperator]

/-! ## The reader of a kind -/

/-- What a token is, whatever its text. -/
inductive Kind where
  | number
  | string
  | comment
  | word
  | operator
  | openParen
  | closeParen
  | comma
  | space
deriving DecidableEq, Repr

def kind : Token → Kind
  | number _ _ => .number
  | string _ _ => .string
  | comment _ _ => .comment
  | word _ => .word
  | operator _ => .operator
  | openParen => .openParen
  | closeParen => .closeParen
  | comma => .comma
  | space _ => .space

section

variable
  {first : Char}
  {rest : Text}
  {result : Token × Text}
  (starts : Starts first rest result)

include starts

theorem Starts.of_space (isSpace : result.1.kind = .space) :
    isBlank first = true ∧ readSpace (first :: rest) = result := by
  cases starts with
  | space blank => exact ⟨blank, rfl⟩
  | _ => cases isSpace

theorem Starts.of_string (isString : result.1.kind = .string) :
    isQuote first = true ∧ readString first rest = result := by
  cases starts with
  | string quote => exact ⟨quote, rfl⟩
  | _ => cases isString

theorem Starts.of_comment (isComment : result.1.kind = .comment) :
    ∃ body, readComment body = result := by
  cases starts with
  | @comment body => exact ⟨body, rfl⟩
  | _ => cases isComment

theorem Starts.of_number (isNumber : result.1.kind = .number) :
    startsNumber (first :: rest) = true ∧ readNumber (first :: rest) = result := by
  cases starts with
  | number number => exact ⟨number, rfl⟩
  | _ => cases isNumber

/-- A word starts with a character that does not end words. -/
theorem Starts.of_word (isWord : result.1.kind = .word) :
    endsWord first = false ∧ readWord (first :: rest) = result := by
  cases starts with
  | dashedWord dashed =>
      rw [first_of_startsDashedWord dashed]
      exact ⟨rfl, rfl⟩
  | word goesOn => exact ⟨goesOn, rfl⟩
  | _ => cases isWord

/-- An operator is an exclamation mark and a name, or one character where no number starts. -/
theorem Starts.of_operator (isOperator : result.1.kind = .operator) :
    readMark rest = result ∨
      Token.isOperator first = true ∧ startsNumber (first :: rest) = false ∧
        (Token.operator [first], rest) = result := by
  cases starts with
  | mark => exact .inl rfl
  | operator operator noComment noNumber => exact .inr ⟨operator, noNumber, rfl⟩
  | _ => cases isOperator

end

def isNumber : Token → Bool
  | number _ _ => true
  | _ => false

/-- A number token is read exactly where a number starts. -/
theorem Starts.isNumber_eq
    {first : Char}
    {rest left : Text}
    {token : Token}
    (starts : Starts first rest (token, left)) :
    token.isNumber = startsNumber (first :: rest) := by
  cases number : startsNumber (first :: rest) with
  | true =>
      have read := starts.nextOf_eq
      rw [nextOf_of_plain (.of_startsNumber number), if_pos number] at read
      have same : (readNumber (first :: rest)).1 = token := congrArg Prod.fst read
      rw [← same]
      rfl
  | false =>
      generalize result : (token, left) = parts at starts
      rw [show token = parts.1 from congrArg Prod.fst result]
      cases starts with
      | number starts =>
          rw [number] at starts
          cases starts
      | _ => rfl

end CssRescale.Token
