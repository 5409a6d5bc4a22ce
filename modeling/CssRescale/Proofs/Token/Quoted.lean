import CssRescale.Proofs.Token.Located
import CssRescale.Proofs.Token.Reached
import CssRescale.Proofs.Token.Replace

/-!
Contract: what stands between quotes is no concern of the tokens around it.

A reader that stops before a quote has not looked behind it: it looks at no more than two
characters after its token, and a quote in front of the second decides. So the tokens
before a quote are the same whatever follows the quote. Behind a string a scan starts anew.

Owns:
- texts that are the same up to a quote, and the steps of a scan before them;
- the scan of a text with a string in it, by the text before and the text behind.
-/

set_option autoImplicit false

namespace CssRescale.Token

open Text (headIs startsWithDigit startsWithDigit_eq takeSign byteLength)
open Numeral (startsExponent)

/-! ## Texts that are the same up to a quote -/

/-- Two texts that are the same up to a quote, which is the last character of neither. -/
inductive SameUpTo (quote : Char) : Text → Text → Prop where
  | quoted {left rest : Text} (more : left ≠ []) (moreToo : rest ≠ []) :
      SameUpTo quote (quote :: left) (quote :: rest)
  | cons {first : Char} {left rest : Text} (same : SameUpTo quote left rest) :
      SameUpTo quote (first :: left) (first :: rest)

section

variable
  {quote : Char}
  {left rest : Text}

theorem SameUpTo.append (same : SameUpTo quote left rest) (front : Text) :
    SameUpTo quote (front ++ left) (front ++ rest) := by
  induction front with
  | nil => exact same
  | cons first front inductionHypothesis => exact .cons inductionHypothesis

theorem SameUpTo.ne_nil (same : SameUpTo quote left rest) : left ≠ [] ∧ rest ≠ [] := by
  cases same <;> exact ⟨List.cons_ne_nil _ _, List.cons_ne_nil _ _⟩

theorem SameUpTo.headIs_eq (same : SameUpTo quote left rest) (holds : Char → Bool) :
    headIs holds left = headIs holds rest := by
  cases same <;> rfl

theorem SameUpTo.startsWithDigit_eq (same : SameUpTo quote left rest) :
    startsWithDigit left = startsWithDigit rest := by
  rw [Text.startsWithDigit_eq, Text.startsWithDigit_eq, same.headIs_eq]

variable
  (isQuote : isQuote quote = true)
  (same : SameUpTo quote left rest)

include isQuote same

theorem SameUpTo.alike : Alike left rest := by
  cases same with
  | quoted more moreToo =>
      have noPoint : quote ≠ '.' := ne_of_isQuote isQuote rfl
      refine .same (by simp [more, moreToo]) ?_
      rw [Numeral.startsFraction_of_ne noPoint, Numeral.startsFraction_of_ne noPoint]
  | @cons first left rest same =>
      refine .same (by simp [same.ne_nil]) ?_
      by_cases point : first = '.'
      · subst point
        exact same.startsWithDigit_eq
      · rw [Numeral.startsFraction_of_ne point, Numeral.startsFraction_of_ne point]

/-- Behind a sign there is a digit in both or in neither. -/
theorem SameUpTo.startsWithDigit_takeSign_eq :
    startsWithDigit (takeSign left).2 = startsWithDigit (takeSign rest).2 := by
  cases same with
  | quoted =>
      have unsigned : isSign quote = false := by
        simp [isSign, CssRescale.isQuote, ne_of_isQuote isQuote]
      simp only [takeSign, unsigned]
      rfl
  | @cons first left rest same =>
      simp only [takeSign]
      split
      · exact same.startsWithDigit_eq
      · rfl

end

/-! ## Tokens before a quote -/

/-- No exponent starts in a number token and ends behind it. -/
theorem not_joinsExponent_of_next?
    {state : UrlState}
    {source left : Text}
    {token : Token}
    (reading : next? state source = some (token, left)) :
    ¬token.JoinsExponent left := by
  rintro ⟨literal, mark, rfl, noMark, isMark, digit⟩
  obtain ⟨numeral, rfl, ends, -⟩ := exists_numeral_of_next? reading
  have noExponent : numeral.exponent? = none := by
    simpa [Numeral.any_isExponentMark_text] using noMark
  have apart := ends.exponent noExponent
  rw [List.singleton_append, startsExponent, isMark, digit] at apart
  cases apart

section

variable
  {start state : UrlState}
  {source left rest : Text}
  {before : List Token}
  {quote : Char}
  (isQuote : isQuote quote = true)

include isQuote

/-- A token is read again before a text that is the same up to a quote, with the same
state after it. -/
theorem next?_of_sameUpTo
    {token : Token}
    (reading : next? state source = some (token, left))
    (same : SameUpTo quote left rest) :
    next? state (token.text ++ rest) = some (token, rest) ∧
      state.after token rest = state.after token left := by
  have alike := same.alike isQuote
  have single : ¬token.JoinsExponent rest := by
    rintro ⟨literal, mark, shape, noMark, isMark, digit⟩
    rw [← same.startsWithDigit_takeSign_eq isQuote] at digit
    exact not_joinsExponent_of_next? reading ⟨literal, mark, shape, noMark, isMark, digit⟩
  exact ⟨next?_again reading (.alike alike) (fun _ => alike) single,
    after_replaced .same (.alike alike) state⟩

/-- What was read before a text is read before every text that is the same up to a quote. -/
theorem Reaches.of_sameUpTo
    (reaches : Reaches start source before state left)
    (same : SameUpTo quote left rest) :
    Reaches start (concat before ++ rest) before state rest := by
  induction reaches generalizing rest with
  | start => exact .start
  | @step before state middle left token reaches reading inductionHypothesis =>
      obtain ⟨again, after⟩ := next?_of_sameUpTo isQuote reading same
      have further : SameUpTo quote middle (token.text ++ rest) :=
        next?_append reading ▸ same.append token.text
      have whole : concat (before ++ [token]) ++ rest = concat before ++ (token.text ++ rest) := by
        simp [concat]
      rw [whole, ← after]
      exact .step (inductionHypothesis further) again

end

/-! ## Strings -/

/-- Between two quotes neither the quote nor a backslash is found. -/
structure IsPlainContent (quote : Char) (content : Text) : Prop where
  noQuote : quote ∉ content
  noBackslash : '\\' ∉ content

/-- The text before a string, the string in its quotes, and the text behind it. -/
def aroundString (quote : Char) (front content back : Text) : Text :=
  front ++ quote :: (content ++ quote :: back)

section

variable
  {quote : Char}
  {content : Text}
  (isQuote : isQuote quote = true)
  (plain : IsPlainContent quote content)

include isQuote plain

/-- In every state a string is read where a quote stands, also where the body of a URL might. -/
theorem next?_string (state : UrlState) (back : Text) :
    next? state (quote :: (content ++ quote :: back)) =
      some (string (quote :: (content ++ [quote])) true, back) := by
  have taken : Text.takeEscaped (· == quote) (content ++ quote :: back) =
      (content, quote :: back) := by
    refine Text.takeEscaped_plain (fun c member => ⟨?_, ?_⟩) ?_
    · exact beq_false_of_ne (ne_of_mem_of_not_mem member plain.noQuote)
    · exact ne_of_mem_of_not_mem member plain.noBackslash
    · have ordinary : ('\\' == quote) = false := beq_false_of_ne (ne_of_isQuote isQuote rfl).symm
      rw [endsRun_eq_headIs ordinary]
      simp [headIs]
  have read : readString quote (content ++ quote :: back) =
      (string (quote :: (content ++ [quote])) true, back) := by
    simp only [readString, takeString, taken]
  have noBody : expectedBody? state (quote :: (content ++ quote :: back)) = none := by
    have solid : isBlank quote = false := by
      simp [isBlank, CssRescale.isQuote, ne_of_isQuote isQuote]
    unfold expectedBody? takeUrlBody?
    simp [solid, isQuote]
  rw [← read]
  exact next?_of_starts noBody (.string isQuote)

end

/-- Where a token starts at the quote, the text is scanned in parts: the text before it, the
string, and the text behind it as a text of its own. What the string contains does not
matter. -/
theorem exists_scan_aroundString
    {quote : Char}
    {front content back : Text}
    {located : LocatedToken}
    (isQuote : isQuote quote = true)
    (member : located ∈ scanLocated (aroundString quote front content back))
    (place : located.offset = byteLength front) :
    ∃ before, concat before = front ∧
      ∀ other, IsPlainContent quote other →
        scan (aroundString quote front other back) =
          before ++ string (quote :: (other ++ [quote])) true :: scan back := by
  obtain ⟨left, right, split⟩ := List.append_of_mem member
  obtain ⟨parts, offset⟩ := LocatedToken.split_of_ofTokens split
  obtain ⟨state, reaches, -⟩ := exists_reaches parts
  generalize left.map LocatedToken.token = before at parts offset reaches
  have whole := concat_scan (aroundString quote front content back)
  rw [parts, concat_append] at whole
  obtain ⟨rfl, following⟩ :=
    Text.append_inj_of_byteLength whole (by rw [← place, offset, Nat.zero_add])
  rw [following] at reaches
  refine ⟨before, rfl, fun other plain => ?_⟩
  have same : SameUpTo quote (quote :: (content ++ quote :: back))
      (quote :: (other ++ quote :: back)) := .quoted (by simp) (by simp)
  have again := reaches.of_sameUpTo isQuote same
  have read := (again.step (next?_string isQuote plain state back)).scanFrom_eq
  rw [List.append_assoc] at read
  exact read

end CssRescale.Token
