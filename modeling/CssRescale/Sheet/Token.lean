import CssRescale.Sheet.Name
import CssRescale.Token.Extent

/-!
Contract: the tokens of a style sheet, as far as its structure depends on them.

Strings, URLs, comments and numbers are single tokens, so no bracket, colon or
semicolon inside them counts. Of names only those of identifiers and at-rules
are kept. Every character that belongs to no longer token is a token.

Owns: the type `SheetToken` and `SheetToken.scan`, which splits any text.
-/

set_option autoImplicit false

namespace CssRescale

/-- The three pairs of brackets. -/
inductive Bracket where
  | round
  | square
  | curly
deriving DecidableEq, Repr

/-- What a token is in the structure of a sheet. -/
inductive SheetTokenKind where
  | blank
  | comment
  | identifier (name : Text)
  | atKeyword (name : Text)
  /-- An opening bracket, with the name before it if it belongs to a call. -/
  | opening (bracket : Bracket)
  | closing (bracket : Bracket)
  | colon
  | semicolon
  /-- One of the markers that may enclose a whole sheet. -/
  | marker
  | other
deriving DecidableEq, Repr

/-- A token of a style sheet with its text. -/
structure SheetToken where
  kind : SheetTokenKind
  raw : Text
deriving DecidableEq, Repr

namespace SheetToken

open Sheet

/-! ## Strings -/

/-- The end of a line; a carriage return with its line feed is one. -/
def takeNewline : Text → Text × Text
  | '\r' :: '\n' :: rest => (['\r', '\n'], rest)
  | [] => ([], [])
  | first :: rest => ([first], rest)

/-- What a backslash in a string takes with it: the end of a line, or an escape. -/
def takeStringEscape (text : Text) : Text × Text :=
  if startsWithNewline text then takeNewline text else takeEscape text

theorem takeStringEscape_append (text : Text) :
    (takeStringEscape text).1 ++ (takeStringEscape text).2 = text := by
  unfold takeStringEscape
  split
  · unfold takeNewline
    split <;> rfl
  · exact takeEscape_append text

theorem length_takeStringEscape_le (text : Text) :
    (takeStringEscape text).2.length ≤ text.length := by
  have whole := congrArg List.length (takeStringEscape_append text)
  rw [List.length_append] at whole
  omega

/-- The rest of a string after its opening quote: up to and including the
closing quote, or up to the end of the line or of the text. -/
def takeString (quote : Char) : Text → Text × Text
  | [] => ([], [])
  | first :: rest =>
      if first = '\\' then
        let (raw, left) := takeString quote (takeStringEscape rest).2
        (first :: (takeStringEscape rest).1 ++ raw, left)
      else if first = quote then ([first], rest)
      else if isNewline first then ([], first :: rest)
      else
        let (raw, left) := takeString quote rest
        (first :: raw, left)
termination_by text => text.length
decreasing_by
  · have := length_takeStringEscape_le rest
    simp only [List.length_cons]
    omega
  · simp

theorem takeString_append (quote : Char) (text : Text) :
    (takeString quote text).1 ++ (takeString quote text).2 = text := by
  fun_induction takeString quote text with
  | case1 => rfl
  | case2 rest raw left taking inductionHypothesis =>
      rw [taking] at inductionHypothesis
      simp only [List.cons_append, List.append_assoc] at inductionHypothesis ⊢
      rw [inductionHypothesis, takeStringEscape_append]
  | case3 => rfl
  | case4 => rfl
  | case5 first rest _ _ _ raw left taking inductionHypothesis =>
      rw [taking] at inductionHypothesis
      simpa using inductionHypothesis

/-! ## Unquoted URLs -/

/-- The rest of a URL that is not well formed: up to and including the first
closing parenthesis that no backslash escapes. -/
def takeBadUrl : Text → Text × Text
  | [] => ([], [])
  | ')' :: rest => ([')'], rest)
  | '\\' :: ')' :: rest => ('\\' :: ')' :: (takeBadUrl rest).1, (takeBadUrl rest).2)
  | '\\' :: '\\' :: rest => ('\\' :: '\\' :: (takeBadUrl rest).1, (takeBadUrl rest).2)
  | first :: rest => (first :: (takeBadUrl rest).1, (takeBadUrl rest).2)

/-- The rest of a URL after a blank: only blanks may stand before the closing
parenthesis, and the first other character makes the URL bad. -/
def takeUrlEnd : Text → Text × Text
  | [] => ([], [])
  | first :: rest =>
      if first = ')' then ([first], rest)
      else if isBlank first then (first :: (takeUrlEnd rest).1, (takeUrlEnd rest).2)
      else (first :: (takeBadUrl rest).1, (takeBadUrl rest).2)

/-- The characters that may not stand in an unquoted URL. -/
def isBadInUrl (c : Char) : Bool :=
  isQuote c || c == '(' || c.toNat == 127
    || (c.toNat < 32 && c.toNat != 0 && !isBlank c)

theorem takeBadUrl_append (text : Text) : (takeBadUrl text).1 ++ (takeBadUrl text).2 = text := by
  fun_induction takeBadUrl text with
  | case1 => rfl
  | case2 => rfl
  | case3 rest inductionHypothesis => simpa using inductionHypothesis
  | case4 rest inductionHypothesis => simpa using inductionHypothesis
  | case5 first rest _ _ _ inductionHypothesis => simpa using inductionHypothesis

theorem takeUrlEnd_append (text : Text) : (takeUrlEnd text).1 ++ (takeUrlEnd text).2 = text := by
  fun_induction takeUrlEnd text with
  | case1 => rfl
  | case2 => rfl
  | case3 first rest _ _ inductionHypothesis => simpa using inductionHypothesis
  | case4 first rest _ _ => simpa using takeBadUrl_append rest

/-- The rest of a URL from its first character that is not blank. -/
def takeUrl : Text → Text × Text
  | [] => ([], [])
  | first :: rest =>
      if first = ')' then ([first], rest)
      else if isBlank first then takeUrlEnd (first :: rest)
      else if isBadInUrl first then takeBadUrl (first :: rest)
      else if first = '\\' then
        if startsWithNewline rest then takeBadUrl (first :: rest)
        else
          (first :: (takeEscape rest).1 ++ (takeUrl (takeEscape rest).2).1,
            (takeUrl (takeEscape rest).2).2)
      else (first :: (takeUrl rest).1, (takeUrl rest).2)
termination_by text => text.length
decreasing_by
  all_goals
    have := length_takeEscape_le rest
    simp only [List.length_cons]
    omega

theorem takeUrl_append (text : Text) : (takeUrl text).1 ++ (takeUrl text).2 = text := by
  fun_induction takeUrl text with
  | case1 => rfl
  | case2 => rfl
  | case3 first rest _ _ => exact takeUrlEnd_append _
  | case4 first rest _ _ _ => exact takeBadUrl_append _
  | case5 => exact takeBadUrl_append _
  | case6 rest _ _ _ _ inductionHypothesis =>
      simp only [List.cons_append, List.append_assoc]
      rw [inductionHypothesis, takeEscape_append]
  | case7 first rest _ _ _ _ inductionHypothesis => simpa using inductionHypothesis

/-- The rest of a URL after `url(`; none if a quote follows, for then the URL is
the argument of a call. -/
def takeUrl? (text : Text) : Option (Text × Text) :=
  let (blanks, rest) := (text.takeWhile isBlank, text.dropWhile isBlank)
  match rest with
  | [] => some (blanks, [])
  | first :: _ =>
      if isQuote first then none
      else some (blanks ++ (takeUrl rest).1, (takeUrl rest).2)

/-! ## One token -/

/-- The identifier, call or URL that a name starts. -/
def readName (text : Text) : SheetToken × Text :=
  let (name, raw, left) := takeName text
  match left with
  | '(' :: rest =>
      if Text.equalIgnoringCase name ['u', 'r', 'l'] then
        match takeUrl? rest with
        | some (body, afterUrl) => (⟨.other, raw ++ '(' :: body⟩, afterUrl)
        | none => (⟨.opening .round, raw ++ ['(']⟩, rest)
      else (⟨.opening .round, raw ++ ['(']⟩, rest)
  | _ => (⟨.identifier name, raw⟩, left)

/-- A number with its unit, which is a percent sign or a name. -/
def readNumber (text : Text) : SheetToken × Text :=
  let (literal, afterLiteral) := Token.takeLiteral text
  match afterLiteral with
  | '%' :: left => (⟨.other, literal ++ ['%']⟩, left)
  | _ =>
      if startsName afterLiteral then
        let (_, raw, left) := takeName afterLiteral
        (⟨.other, literal ++ raw⟩, left)
      else (⟨.other, literal⟩, afterLiteral)

/-- The keyword after an at sign, if there is one. -/
def readAt (rest : Text) : SheetToken × Text :=
  if startsName rest then
    let (name, raw, left) := takeName rest
    (⟨.atKeyword name, '@' :: raw⟩, left)
  else (⟨.other, ['@']⟩, rest)

/-- The name after a number sign, if there is one. -/
def readHash (rest : Text) : SheetToken × Text :=
  if continuesName rest then
    let (_, raw, left) := takeName rest
    (⟨.other, '#' :: raw⟩, left)
  else (⟨.other, ['#']⟩, rest)

/-- What a single character is in the structure of a sheet. -/
def kindOf (c : Char) : SheetTokenKind :=
  if c == ':' then .colon
  else if c == ';' then .semicolon
  else if c == '(' then .opening .round
  else if c == '[' then .opening .square
  else if c == '\x7b' then .opening .curly
  else if c == ')' then .closing .round
  else if c == ']' then .closing .square
  else if c == '\x7d' then .closing .curly
  else .other

/-- The token that starts with the character `first` of the text `first :: rest`,
and the text after it. -/
def nextOf (first : Char) (rest : Text) : SheetToken × Text :=
  if isBlank first then
    (⟨.blank, first :: rest.takeWhile isBlank⟩, rest.dropWhile isBlank)
  else if isQuote first then
    (⟨.other, first :: (takeString first rest).1⟩, (takeString first rest).2)
  else if Token.startsNumber (first :: rest) then readNumber (first :: rest)
  else
    match first, rest with
    | '/', '*' :: body =>
        (⟨.comment, '/' :: '*' :: (Token.takeComment body).1⟩, (Token.takeComment body).2.2)
    | '<', '!' :: '-' :: '-' :: left => (⟨.marker, ['<', '!', '-', '-']⟩, left)
    | '-', '-' :: '>' :: left => (⟨.marker, ['-', '-', '>']⟩, left)
    | '@', _ => readAt rest
    | '#', _ => readHash rest
    | _, _ =>
        if startsName (first :: rest) then readName (first :: rest)
        else (⟨kindOf first, [first]⟩, rest)

/-! ## What is taken and what is left -/

theorem takeUrl?_append
    {text body left : Text}
    (taking : takeUrl? text = some (body, left)) :
    body ++ left = text := by
  have blanks : text.takeWhile isBlank ++ text.dropWhile isBlank = text :=
    List.takeWhile_append_dropWhile
  simp only [takeUrl?] at taking
  split at taking
  next ended =>
    simp only [Option.some.injEq, Prod.mk.injEq] at taking
    rw [← taking.1, ← taking.2, ← ended]
    exact blanks
  next first rest following =>
    split at taking
    · simp at taking
    · simp only [Option.some.injEq, Prod.mk.injEq] at taking
      rw [← taking.1, ← taking.2, List.append_assoc, takeUrl_append]
      exact blanks

theorem readName_append (text : Text) :
    (readName text).1.raw ++ (readName text).2 = text := by
  have whole := takeName_append text
  simp only [readName]
  split
  next rest following =>
    rw [following] at whole
    split
    · split
      next body afterUrl taking =>
        simp only [List.append_assoc, List.cons_append]
        rw [takeUrl?_append taking]
        exact whole
      next => simpa using whole
    · simpa using whole
  next => exact whole

theorem readNumber_append (text : Text) :
    (readNumber text).1.raw ++ (readNumber text).2 = text := by
  have whole := Token.takeLiteral_append text
  simp only [readNumber]
  split
  next left following =>
    rw [following] at whole
    simpa using whole
  next =>
    split
    · simp only [List.append_assoc, takeName_append]
      exact whole
    · exact whole

theorem readAt_append (rest : Text) : (readAt rest).1.raw ++ (readAt rest).2 = '@' :: rest := by
  unfold readAt
  split
  · simp [takeName_append]
  · rfl

theorem readHash_append (rest : Text) :
    (readHash rest).1.raw ++ (readHash rest).2 = '#' :: rest := by
  unfold readHash
  split
  · simp [takeName_append]
  · rfl

/-- The text of the next token and the text after it are the input. -/
theorem nextOf_append (first : Char) (rest : Text) :
    (nextOf first rest).1.raw ++ (nextOf first rest).2 = first :: rest := by
  unfold nextOf
  split
  · simp
  split
  · simp [takeString_append]
  split
  · exact readNumber_append _
  split
  · simp [Token.takeComment_append]
  · rfl
  · rfl
  · exact readAt_append rest
  · exact readHash_append rest
  · split
    · exact readName_append _
    · rfl

/-! ## No token is empty -/

theorem takeName_ne_nil_of_nameChar
    {first : Char}
    (rest : Text)
    (plain : first ≠ '\\')
    (name : isNameChar first = true) :
    (takeName (first :: rest)).2.1 ≠ [] := by
  rw [takeName]
  simp [plain, name]

theorem takeName_ne_nil_of_escape
    {rest : Text}
    (goesOn : startsWithNewline rest = false) :
    (takeName ('\\' :: rest)).2.1 ≠ [] := by
  rw [takeName]
  simp [goesOn]

/-- Where a name starts, it is not empty. -/
theorem takeName_raw_ne_nil
    {text : Text}
    (starts : startsName text = true) :
    (takeName text).2.1 ≠ [] := by
  unfold startsName at starts
  split at starts
  · simp at starts
  · exact takeName_ne_nil_of_nameChar _ (by decide) (by decide)
  · exact takeName_ne_nil_of_escape (by simpa using starts)
  next first rest _ plain =>
    simp only [Bool.and_eq_true] at starts
    exact takeName_ne_nil_of_nameChar rest (fun same => plain same) starts.1

theorem readName_raw_ne_nil
    {text : Text}
    (starts : startsName text = true) :
    (readName text).1.raw ≠ [] := by
  have nonempty := takeName_raw_ne_nil starts
  simp only [readName]
  split
  · split
    · split
      · simp
      · simp
    · simp
  · exact nonempty

/-- A token has at least one character. -/
theorem nextOf_raw_ne_nil (first : Char) (rest : Text) : (nextOf first rest).1.raw ≠ [] := by
  unfold nextOf
  split
  · simp
  split
  · simp
  split
  next number =>
    have literal := Token.takeLiteral_ne_nil number
    simp only [readNumber]
    split
    · simp
    · split
      · simp [literal]
      · exact literal
  split
  · simp
  · simp
  · simp
  · unfold readAt
    split <;> simp
  · unfold readHash
    split <;> simp
  · split
    next starts => exact readName_raw_ne_nil starts
    next => simp

theorem nextOf_length_lt (first : Char) (rest : Text) :
    (nextOf first rest).2.length < (first :: rest).length := by
  rw [← nextOf_append first rest, List.length_append]
  have : 0 < (nextOf first rest).1.raw.length :=
    List.length_pos_iff.mpr (nextOf_raw_ne_nil first rest)
  omega

/-- The tokens of a text, in order. -/
def scan : Text → List SheetToken
  | [] => []
  | first :: rest => (nextOf first rest).1 :: scan (nextOf first rest).2
termination_by text => text.length
decreasing_by exact nextOf_length_lt first rest

end SheetToken

end CssRescale
