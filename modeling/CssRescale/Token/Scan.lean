import CssRescale.Token.Extent

/-!
Contract: the tokens of every text.

Owns:
- the state that recognises the unquoted body of `url(...)`;
- `Token.scan`, which splits any text into tokens and never fails.

Each step takes at least one character, so a scan ends; the texts of its tokens
are the parts the input was split into.
-/

set_option autoImplicit false

namespace CssRescale.Token

/-! ## The state of a scan -/

/-- Where a scan stands with respect to `url(`. -/
inductive UrlState where
  | outside
  /-- Right after the word `url` and right before a parenthesis. -/
  | named
  /-- Right after the word `url` and its parenthesis. -/
  | opened
deriving DecidableEq, Repr

/-- The name of the function whose argument need not be quoted. -/
def urlName : Text := ['u', 'r', 'l']

/-- Does the text start with an opening parenthesis? -/
def startsWithParen : Text → Bool
  | '(' :: _ => true
  | _ => false

/-- The state after a token, given the text that follows it. -/
def UrlState.after (state : UrlState) (token : Token) (left : Text) : UrlState :=
  match token with
  | word raw =>
      if Text.equalIgnoringCase raw urlName && startsWithParen left then named else outside
  | openParen => if state = named then opened else outside
  | _ => outside

/-- The unquoted body of `url(...)`, if the text after the parenthesis has one:
its first character that is not white space is neither a quote nor the closing
parenthesis. -/
def takeUrlBody? (text : Text) : Option (Text × Text) :=
  match text.dropWhile isBlank with
  | [] => none
  | first :: _ =>
      if isQuote first || first == ')' then none
      else some (Text.takeEscaped (· == ')') text)

/-- The URL body that the next token is, if the state expects one. -/
def expectedBody? (state : UrlState) (text : Text) : Option (Text × Text) :=
  if state = .opened then takeUrlBody? text else none

/-- The next token in a state, and the text after it; none at the end of the text. -/
def next? (state : UrlState) : Text → Option (Token × Text)
  | [] => none
  | first :: rest =>
      match expectedBody? state (first :: rest) with
      | some (body, left) => some (word body, left)
      | none => some (nextOf first rest)

/-! ## What is taken and what is left -/

theorem takeUrlBody?_append
    {text body left : Text}
    (taking : takeUrlBody? text = some (body, left)) :
    body ++ left = text := by
  unfold takeUrlBody? at taking
  split at taking
  · simp at taking
  · split at taking
    · simp at taking
    · have whole := Text.takeEscaped_append (· == ')') text
      simp only [Option.some.injEq] at taking
      rw [taking] at whole
      exact whole

theorem takeUrlBody?_of_expectedBody?
    {state : UrlState}
    {text body left : Text}
    (expected : expectedBody? state text = some (body, left)) :
    takeUrlBody? text = some (body, left) := by
  unfold expectedBody? at expected
  split at expected
  · exact expected
  · simp at expected

/-- The text of the next token and the text after it are the input. -/
theorem next?_append
    {state : UrlState}
    {source left : Text}
    {token : Token}
    (reading : next? state source = some (token, left)) :
    token.text ++ left = source := by
  unfold next? at reading
  split at reading
  · simp at reading
  next first rest =>
    split at reading
    next body remaining expected =>
      simp only [Option.some.injEq, Prod.mk.injEq] at reading
      rw [← reading.1, ← reading.2]
      exact takeUrlBody?_append (takeUrlBody?_of_expectedBody? expected)
    next =>
      have whole := nextOf_append first rest
      simp only [Option.some.injEq] at reading
      rw [reading] at whole
      exact whole

theorem takeUrlBody?_ne_nil
    {first : Char}
    {rest body left : Text}
    (taking : takeUrlBody? (first :: rest) = some (body, left)) :
    body ≠ [] := by
  have goesOn : (first == ')') = false := by
    by_cases blank : isBlank first = true
    · cases same : first == ')' with
      | false => rfl
      | true =>
          rw [eq_of_beq same] at blank
          exact absurd blank (by decide)
    · simp only [takeUrlBody?, List.dropWhile_cons, blank] at taking
      simp only [Bool.false_eq_true, if_false] at taking
      split at taking
      · simp at taking
      · rename_i ordinary
        simp only [Bool.or_eq_true, not_or, Bool.not_eq_true] at ordinary
        exact ordinary.2
  have taken : Text.takeEscaped (· == ')') (first :: rest) = (body, left) := by
    unfold takeUrlBody? at taking
    split at taking
    · simp at taking
    · split at taking
      · simp at taking
      · simpa using taking
  have nonempty : (Text.takeEscaped (· == ')') (first :: rest)).1 ≠ [] :=
    Text.takeEscaped_ne_nil rest goesOn
  rw [taken] at nonempty
  exact nonempty

/-- The next token of a text has at least one character. -/
theorem next?_text_ne_nil
    {state : UrlState}
    {source left : Text}
    {token : Token}
    (reading : next? state source = some (token, left)) :
    token.text ≠ [] := by
  unfold next? at reading
  split at reading
  · simp at reading
  next first rest =>
    split at reading
    next body remaining expected =>
      simp only [Option.some.injEq, Prod.mk.injEq] at reading
      rw [← reading.1]
      exact takeUrlBody?_ne_nil (takeUrlBody?_of_expectedBody? expected)
    next =>
      have nonempty := nextOf_text_ne_nil first rest
      simp only [Option.some.injEq] at reading
      rw [reading] at nonempty
      exact nonempty

/-- What is left after a token is shorter than the text before it. -/
theorem next?_length_lt
    {state : UrlState}
    {source left : Text}
    {token : Token}
    (reading : next? state source = some (token, left)) :
    left.length < source.length := by
  rw [← next?_append reading, List.length_append]
  have : 0 < token.text.length := List.length_pos_iff.mpr (next?_text_ne_nil reading)
  omega

/-! ## All tokens -/

/-- The tokens of a text that is reached in the given state. -/
def scanFrom (state : UrlState) (source : Text) : List Token :=
  match _reading : next? state source with
  | none => []
  | some (token, left) => token :: scanFrom (state.after token left) left
termination_by source.length
decreasing_by exact next?_length_lt _reading

/-- The tokens of a text, in order. -/
def scan (source : Text) : List Token := scanFrom .outside source

/-- The tokens of a text with the byte offsets at which they start. -/
def scanLocated (source : Text) : List LocatedToken :=
  LocatedToken.ofTokens 0 (scan source)

end CssRescale.Token
