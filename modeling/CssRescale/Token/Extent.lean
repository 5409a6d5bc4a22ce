import CssRescale.Token.Basic

/-!
Contract: the extent of each kind of token.

Owns:
- one reader for each part and kind of token, which returns what it took and
  what it left;
- `Token.nextOf`, which chooses the reader from the first characters;
- the facts that what is taken and what is left are the input, and that no
  token is empty.

Does not own: the unquoted body of `url(...)`, which depends on the tokens before it.
-/

set_option autoImplicit false

namespace CssRescale.Token

/-! ## Readers -/

/-- The fraction of a number: a point with at least one digit after it. -/
def takeFraction : Text → Text × Text
  | '.' :: rest =>
      if Text.startsWithDigit rest then
        ('.' :: (Text.takeDigits rest).1, (Text.takeDigits rest).2)
      else
        ([], '.' :: rest)
  | text => ([], text)

/-- The exponent of a number: a mark, perhaps a sign, and at least one digit. -/
def takeExponent : Text → Text × Text
  | [] => ([], [])
  | mark :: rest =>
      let (sign, afterSign) := Text.takeSign rest
      if isExponentMark mark && Text.startsWithDigit afterSign then
        (mark :: sign ++ (Text.takeDigits afterSign).1, (Text.takeDigits afterSign).2)
      else
        ([], mark :: rest)

/-- A numeric literal: sign, digits, fraction and exponent, as far as each goes. -/
def takeLiteral (text : Text) : Text × Text :=
  let (sign, afterSign) := Text.takeSign text
  let (whole, afterWhole) := Text.takeDigits afterSign
  let (fraction, afterFraction) := takeFraction afterWhole
  let (exponent, left) := takeExponent afterFraction
  (sign ++ whole ++ fraction ++ exponent, left)

/-- The characters that go on an identifier. -/
def continuesIdentifier (c : Char) : Bool :=
  c.isAlphanum || c == '_' || c == '-' || isNonAscii c

/-- Identifier characters and escaped pairs, as far as they go. -/
def takeIdentifier (text : Text) : Text × Text :=
  Text.takeEscaped (fun c => !continuesIdentifier c) text

/-- A unit starts with a letter, an underscore, a character beyond ASCII or an escaped pair. -/
def startsUnit : Text → Bool
  | [] => false
  | ['\\'] => false
  | first :: _ => first.isAlpha || first == '_' || isNonAscii first || first == '\\'

/-- The unit after a numeric literal: a percent sign, an identifier or nothing. -/
def takeUnit (text : Text) : Text × Text :=
  match text with
  | '%' :: rest => (['%'], rest)
  | _ => if startsUnit text then takeIdentifier text else ([], text)

/-- The characters that end a word unless they are escaped. -/
def endsWord (c : Char) : Bool :=
  isBlank c || isQuote c || c == '(' || c == ')' || c == ',' || c == '/' || c == '!'
    || c == '*' || c == '=' || c == '<' || c == '>' || c == ':' || c == ';'

/-- The rest of a string after its opening quote, with its closing quote if there is one. -/
def takeString (quote : Char) (text : Text) : Text × Bool × Text :=
  match Text.takeEscaped (· == quote) text with
  | (body, []) => (body, false, [])
  | (body, closing :: rest) => (body ++ [closing], true, rest)

/-- The rest of a comment after its opening, with its closing if there is one. -/
def takeComment : Text → Text × Bool × Text
  | [] => ([], false, [])
  | '*' :: '/' :: rest => (['*', '/'], true, rest)
  | first :: rest =>
      let (taken, terminated, left) := takeComment rest
      (first :: taken, terminated, left)

/-! ## The kind of the next token -/

/-- A number starts with a digit, or with a sign or point that a digit follows. -/
def startsNumber : Text → Bool
  | [] => false
  | '.' :: rest => Text.startsWithDigit rest
  | first :: rest =>
      if isSign first then
        Text.startsWithDigit rest ||
          match rest with
          | '.' :: afterPoint => Text.startsWithDigit afterPoint
          | _ => false
      else
        first.isDigit

/-- A hyphen that a letter, hyphen, underscore or non-ASCII character follows starts a word. -/
def startsDashedWord : Text → Bool
  | '-' :: second :: _ => second.isAlpha || second == '-' || second == '_' || isNonAscii second
  | _ => false

/-- The characters that are operators of their own. -/
def isOperator (c : Char) : Bool :=
  c == '/' || c == '*' || c == '+' || c == '-' || c == '=' || c == '<' || c == '>' || c == ':'
    || c == ';'

/-! ## One token -/

/-- White space, as far as it goes. -/
def readSpace (text : Text) : Token × Text :=
  (space (text.takeWhile isBlank), text.dropWhile isBlank)

/-- The string that an opening quote starts. -/
def readString (quote : Char) (rest : Text) : Token × Text :=
  let (body, terminated, left) := takeString quote rest
  (string (quote :: body) terminated, left)

/-- The comment whose opening has been taken. -/
def readComment (rest : Text) : Token × Text :=
  let (body, terminated, left) := takeComment rest
  (comment ('/' :: '*' :: body) terminated, left)

def readNumber (text : Text) : Token × Text :=
  let (literal, afterLiteral) := takeLiteral text
  let (unit, left) := takeUnit afterLiteral
  (number literal unit, left)

/-- A word, up to a character that ends it. -/
def readWord (text : Text) : Token × Text :=
  let (raw, left) := Text.takeEscaped endsWord text
  (word raw, left)

/-- An exclamation mark with the identifier characters after it. -/
def readMark (rest : Text) : Token × Text :=
  let (name, left) := takeIdentifier rest
  (operator ('!' :: name), left)

/-- The token that starts with the character `first` of the text
`first :: rest`, where no URL body is expected, and the text after it. -/
def nextOf (first : Char) (rest : Text) : Token × Text :=
  if isBlank first then readSpace (first :: rest)
  else if isQuote first then readString first rest
  else
    match first, rest with
    | '/', '*' :: body => readComment body
    | '(', _ => (openParen, rest)
    | ')', _ => (closeParen, rest)
    | ',', _ => (comma, rest)
    | '!', _ => readMark rest
    | _, _ =>
        if startsNumber (first :: rest) then readNumber (first :: rest)
        else if startsDashedWord (first :: rest) then readWord (first :: rest)
        else if isOperator first then (operator [first], rest)
        else readWord (first :: rest)

/-! ## What is taken and what is left -/

theorem takeFraction_append (text : Text) :
    (takeFraction text).1 ++ (takeFraction text).2 = text := by
  unfold takeFraction
  split
  · split
    · simpa using Text.takeDigits_append _
    · rfl
  · rfl

theorem takeExponent_append (text : Text) :
    (takeExponent text).1 ++ (takeExponent text).2 = text := by
  cases text with
  | nil => rfl
  | cons mark rest =>
      simp only [takeExponent]
      split
      · simpa [Text.takeDigits_append] using Text.takeSign_append rest
      · rfl

theorem takeLiteral_append (text : Text) :
    (takeLiteral text).1 ++ (takeLiteral text).2 = text := by
  simp only [takeLiteral, List.append_assoc]
  rw [takeExponent_append, takeFraction_append, Text.takeDigits_append, Text.takeSign_append]

theorem takeUnit_append (text : Text) :
    (takeUnit text).1 ++ (takeUnit text).2 = text := by
  unfold takeUnit
  split
  · rfl
  · split
    · exact Text.takeEscaped_append _ _
    · rfl

theorem takeString_append (quote : Char) (text : Text) :
    (takeString quote text).1 ++ (takeString quote text).2.2 = text := by
  have whole := Text.takeEscaped_append (· == quote) text
  unfold takeString
  split
  next body taking => simpa [taking] using whole
  next body closing rest taking => simpa [taking] using whole

theorem takeComment_append (text : Text) :
    (takeComment text).1 ++ (takeComment text).2.2 = text := by
  fun_induction takeComment text with
  | case1 => rfl
  | case2 => rfl
  | case3 first rest _ taken terminated left taking inductionHypothesis =>
      rw [taking] at inductionHypothesis
      simpa using inductionHypothesis

theorem readNumber_append (source : Text) :
    (readNumber source).1.text ++ (readNumber source).2 = source := by
  simp only [readNumber, text, List.append_assoc]
  rw [takeUnit_append, takeLiteral_append]

theorem readWord_append (source : Text) :
    (readWord source).1.text ++ (readWord source).2 = source :=
  Text.takeEscaped_append endsWord source

/-- The text of the next token and the text after it are the input. -/
theorem nextOf_append (first : Char) (rest : Text) :
    (nextOf first rest).1.text ++ (nextOf first rest).2 = first :: rest := by
  unfold nextOf
  split
  · exact List.takeWhile_append_dropWhile
  split
  · simpa [readString, text] using takeString_append first rest
  split
  · simpa [readComment, text] using takeComment_append _
  · rfl
  · rfl
  · rfl
  · simpa [readMark, text, takeIdentifier] using Text.takeEscaped_append _ rest
  · split
    · exact readNumber_append _
    split
    · exact readWord_append _
    split
    · rfl
    · exact readWord_append _

/-! ## No token is empty -/

theorem takeDigits_ne_nil
    {source : Text}
    (digit : Text.startsWithDigit source = true) :
    (Text.takeDigits source).1 ≠ [] := by
  cases source with
  | nil => simp [Text.startsWithDigit] at digit
  | cons first rest =>
      have isDigit : first.isDigit = true := digit
      simp [Text.takeDigits, isDigit]

/-- Where a number starts, its literal is not empty. -/
theorem takeLiteral_ne_nil
    {source : Text}
    (number : startsNumber source = true) :
    (takeLiteral source).1 ≠ [] := by
  cases source with
  | nil => simp [startsNumber] at number
  | cons first rest =>
      by_cases signed : isSign first = true
      · simp [takeLiteral, Text.takeSign, signed]
      · have unsigned : Text.takeSign (first :: rest) = ([], first :: rest) := by
          simp [Text.takeSign, signed]
        by_cases digit : first.isDigit = true
        · have whole : (Text.takeDigits (first :: rest)).1 ≠ [] := takeDigits_ne_nil digit
          simp [takeLiteral, unsigned, whole]
        · have point : first = '.' ∧ Text.startsWithDigit rest = true := by
            unfold startsNumber at number
            split at number
            · simp at number
            · rename_i same
              simp only [List.cons.injEq] at same
              exact ⟨same.1, same.2 ▸ number⟩
            · rename_i same
              simp only [List.cons.injEq] at same
              rw [← same.1] at number
              simp [signed, digit] at number
          obtain ⟨rfl, fraction⟩ := point
          have noDigits : Text.takeDigits ('.' :: rest) = ([], '.' :: rest) := by
            simp [Text.takeDigits, digit]
          simp [takeLiteral, unsigned, noDigits, takeFraction, fraction]

/-- A character that starts no other token starts a word. -/
theorem endsWord_eq_false
    {first : Char}
    (notBlank : isBlank first = false)
    (notQuote : isQuote first = false)
    (notOpen : first ≠ '(')
    (notClose : first ≠ ')')
    (notComma : first ≠ ',')
    (notMark : first ≠ '!')
    (notOperator : isOperator first = false) :
    endsWord first = false := by
  simp only [isOperator, Bool.or_eq_false_iff] at notOperator
  simp_all [endsWord]

theorem nextOf_text_ne_nil (first : Char) (rest : Text) :
    (nextOf first rest).1.text ≠ [] := by
  unfold nextOf
  split
  next blank => simp [readSpace, text, blank]
  next notBlank =>
  split
  · simp [readString, text]
  next notQuote =>
  split
  · simp [readComment, text]
  · simp [text]
  · simp [text]
  · simp [text]
  · simp [readMark, text]
  next notOpen notClose notComma notMark _ =>
  split
  next number =>
    have literal := takeLiteral_ne_nil number
    simp [readNumber, text, literal]
  next =>
  split
  next dashed =>
    have hyphen : first = '-' := by
      unfold startsDashedWord at dashed
      split at dashed
      · rename_i same
        simp only [List.cons.injEq] at same
        exact same.1
      · simp at dashed
    exact Text.takeEscaped_ne_nil rest (by rw [hyphen]; decide)
  next =>
  split
  · simp [text]
  next notOperator =>
    simp only [Bool.not_eq_true] at notBlank notQuote notOperator
    exact Text.takeEscaped_ne_nil rest
      (endsWord_eq_false notBlank notQuote notOpen notClose notComma notMark notOperator)

end CssRescale.Token
