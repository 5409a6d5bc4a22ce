import CssRescale.Proofs.Sheet.Kinds

/-!
Contract: nothing is read across a colon, a semicolon or a curly bracket.

These characters go on no run of characters, no number and no name. So each reader
that stops at the first character it does not take reads the same from a text and from
that text with more behind it, if what is behind starts with one of them.

Owns:
- the texts that stand apart from what is before them;
- blank runs, numbers and names before such a text;
- unquoted URLs that are closed, before any text.

Does not own: strings, comments and escapes, which do run across these characters.
-/

set_option autoImplicit false

namespace CssRescale

namespace Text

/-- The characters that start a token of their own wherever they stand. -/
def separates (c : Char) : Bool := c == ':' || c == ';' || c == '\x7b' || c == '\x7d'

/-- The text is empty, or starts with a character that separates. -/
def IsApart (text : Text) : Prop := ∀ c ∈ text.head?, separates c = true

theorem isApart_nil : IsApart [] := nofun

theorem isApart_cons {first : Char} (separate : separates first = true) (rest : Text) :
    IsApart (first :: rest) := by
  intro c member
  cases member
  exact separate

theorem IsApart.cases {text : Text} (apart : IsApart text) :
    text = [] ∨ ∃ rest, text = ':' :: rest ∨ text = ';' :: rest ∨ text = '\x7b' :: rest
      ∨ text = '\x7d' :: rest := by
  cases text with
  | nil => exact Or.inl rfl
  | cons first rest =>
      have separate := apart first rfl
      simp only [separates, Bool.or_eq_true, beq_iff_eq] at separate
      refine Or.inr ⟨rest, ?_⟩
      simp only [List.cons.injEq, and_true]
      rcases separate with ((colon | semicolon) | opening) | closing
      · exact Or.inl colon
      · exact Or.inr (Or.inl semicolon)
      · exact Or.inr (Or.inr (Or.inl opening))
      · exact Or.inr (Or.inr (Or.inr closing))

/-- No character that separates is in the class. -/
structure Excludes (holds : Char → Bool) : Prop where
  colon : holds ':' = false
  semicolon : holds ';' = false
  opening : holds '\x7b' = false
  closing : holds '\x7d' = false

theorem IsApart.headIs
    {holds : Char → Bool}
    {following : Text}
    (apart : IsApart following)
    (excludes : Excludes holds) :
    headIs holds following = false := by
  rcases apart.cases with rfl | ⟨rest, rfl | rfl | rfl | rfl⟩
  · rfl
  · exact excludes.colon
  · exact excludes.semicolon
  · exact excludes.opening
  · exact excludes.closing

/-! ## Marks of several characters -/

theorem isPrefixOf_eq_false
    {mark text : Text}
    (absent : ∀ tail, text ≠ mark ++ tail) :
    mark.isPrefixOf text = false := by
  rw [← Bool.not_eq_true, List.isPrefixOf_iff_prefix]
  rintro ⟨tail, rfl⟩
  exact absent tail rfl

theorem isPrefixOf_append_apart
    {mark following : Text}
    (apart : IsApart following)
    (within : ∀ c ∈ mark, separates c = false)
    (text : Text) :
    mark.isPrefixOf (text ++ following) = mark.isPrefixOf text := by
  induction mark generalizing text with
  | nil => simp
  | cons first mark inductionHypothesis =>
      cases text with
      | nil =>
          cases following with
          | nil => rfl
          | cons head tail =>
              have separate := apart head rfl
              have other := within first List.mem_cons_self
              have different : (first == head) = false := by
                rw [beq_eq_false_iff_ne]
                rintro rfl
                exact absurd (separate.symm.trans other) nofun
              simp [List.isPrefixOf, different]
      | cons head tail =>
          rw [List.cons_append, List.isPrefixOf, List.isPrefixOf,
            inductionHypothesis fun c member => within c (List.mem_cons_of_mem first member)]

end Text

open Text (IsApart)

/-- No literal goes on in a text that stands apart. -/
theorem Text.IsApart.endsLiteral {following : Text} (apart : IsApart following) :
    Text.headIs Token.isLiteralChar following = false := apart.headIs ⟨rfl, rfl, rfl, rfl⟩

namespace Sheet

/-! ## Names -/

theorem isNameChar_of_isAlpha {c : Char} (letter : c.isAlpha = true) : isNameChar c = true := by
  simp [isNameChar, Char.isAlphanum, letter]

theorem nameChar_of_isAlpha {c : Char} (letter : c.isAlpha = true) : nameChar c = c := by
  have notNul : (c.toNat == 0) = false := by
    rw [beq_eq_false_iff_ne]
    intro nul
    have same := Char.ofNat_toNat c
    rw [nul] at same
    exact Text.ne_of_isAlpha letter rfl same.symm
  rw [nameChar, notNul]
  rfl

theorem startsName_of_isAlpha
    {first : Char}
    (letter : first.isAlpha = true)
    (rest : Text) :
    startsName (first :: rest) = true := by
  simp [startsName, Text.ne_of_isAlpha letter, isNameChar_of_isAlpha letter,
    Token.isDigit_of_isAlpha letter]

/-- A name goes on neither in other characters nor at the end. -/
theorem takeName_of_ends
    {text : Text}
    (ends : Text.headIs isNameChar text = false)
    (noEscape : Text.headIs (· == '\\') text = false) :
    takeName text = ([], [], text) := by
  cases text with
  | nil => rw [takeName]
  | cons first rest =>
      have unescaped : first ≠ '\\' := by simpa [Text.headIs] using noEscape
      have other : isNameChar first = false := ends
      simp [takeName, unescaped, other]

section

variable
  {following : Text}
  (apart : IsApart following)

include apart

theorem takeName_append_apart
    {text : Text}
    (plain : '\\' ∉ text) :
    takeName (text ++ following) =
      ((takeName text).1, (takeName text).2.1, (takeName text).2.2 ++ following) := by
  induction text with
  | nil =>
      have ends : Text.headIs isNameChar following = false := apart.headIs ⟨rfl, rfl, rfl, rfl⟩
      have noEscape : Text.headIs (· == '\\') following = false :=
        apart.headIs ⟨rfl, rfl, rfl, rfl⟩
      rw [List.nil_append, takeName_of_ends ends noEscape, takeName_of_ends rfl rfl]
      rfl
  | cons first rest inductionHypothesis =>
      obtain ⟨unescaped, others⟩ := List.ne_and_not_mem_of_not_mem_cons plain
      by_cases name : isNameChar first = true
      · simp [takeName, unescaped.symm, name, inductionHypothesis others]
      · simp [takeName, unescaped.symm, name]

theorem continuesName_append_apart
    {text : Text}
    (plain : '\\' ∉ text) :
    continuesName (text ++ following) = continuesName text := by
  cases text with
  | nil => rcases apart.cases with rfl | ⟨rest, rfl | rfl | rfl | rfl⟩ <;> rfl
  | cons first rest =>
      have unescaped := (List.ne_and_not_mem_of_not_mem_cons plain).1.symm
      simp [continuesName]

theorem startsName_append_apart
    {text : Text}
    (plain : '\\' ∉ text) :
    startsName (text ++ following) = startsName text := by
  cases text with
  | nil => rcases apart.cases with rfl | ⟨rest, rfl | rfl | rfl | rfl⟩ <;> rfl
  | cons first rest =>
      have unescaped := (List.ne_and_not_mem_of_not_mem_cons plain).1.symm
      by_cases hyphen : first = '-'
      · subst hyphen
        cases rest with
        | nil => rcases apart.cases with rfl | ⟨rest, rfl | rfl | rfl | rfl⟩ <;> rfl
        | cons second rest => rfl
      · simp [startsName]

end

end Sheet

namespace SheetToken

open Sheet

/-! ## Comments, markers and signs -/

theorem startsSpecial_eq (text : Text) :
    startsSpecial text =
      (['/', '*'].isPrefixOf text || ['<', '!', '-', '-'].isPrefixOf text
        || ['-', '-', '>'].isPrefixOf text || ['@'].isPrefixOf text || ['#'].isPrefixOf text) := by
  fun_cases startsSpecial text with
  | case6 _ noComment noOpen noClose noAt noHash =>
      have absent := fun mark => @Text.isPrefixOf_eq_false mark text
      rw [absent ['/', '*'] noComment, absent ['<', '!', '-', '-'] noOpen,
        absent ['-', '-', '>'] noClose, absent ['@'] noAt, absent ['#'] noHash]
      rfl
  | _ => simp [List.isPrefixOf]

theorem startsSpecial_append_apart
    {following : Text}
    (apart : IsApart following)
    (text : Text) :
    startsSpecial (text ++ following) = startsSpecial text := by
  have same := fun mark within => @Text.isPrefixOf_append_apart mark following apart within text
  simp only [startsSpecial_eq]
  rw [same ['/', '*'] (by simp [Text.separates]),
    same ['<', '!', '-', '-'] (by simp [Text.separates]),
    same ['-', '-', '>'] (by simp [Text.separates]), same ['@'] (by simp [Text.separates]),
    same ['#'] (by simp [Text.separates])]

theorem Ordinary.append_apart
    {first : Char}
    {rest following : Text}
    (ordinary : Ordinary first rest)
    (apart : IsApart following) :
    Ordinary first (rest ++ following) where
  blank := ordinary.blank
  quote := ordinary.quote
  number :=
    (Token.startsNumber_append_of_ends apart.endsLiteral (first :: rest)).trans ordinary.number
  special := (startsSpecial_append_apart apart (first :: rest)).trans ordinary.special

/-! ## Numbers and hashes -/

section

variable
  {following : Text}
  (apart : IsApart following)

include apart

theorem readNumber_append_apart
    {text : Text}
    (plain : '\\' ∉ text) :
    readNumber (text ++ following) = ((readNumber text).1, (readNumber text).2 ++ following) := by
  have literal := Token.takeLiteral_append_of_ends apart.endsLiteral text
  have unitPlain : '\\' ∉ (Token.takeLiteral text).2 := by
    intro member
    rw [← Token.takeLiteral_append text] at plain
    exact plain (List.mem_append_right _ member)
  have names := startsName_append_apart apart unitPlain
  have unit := takeName_append_apart apart unitPlain
  simp only [readNumber, literal]
  cases afterLiteral : (Token.takeLiteral text).2 with
  | nil =>
      rcases apart.cases with rfl | ⟨rest, rfl | rfl | rfl | rfl⟩ <;> rfl
  | cons first rest =>
      by_cases percent : first = '%'
      · subst percent
        rfl
      · rw [afterLiteral] at names unit
        rw [List.cons_append] at names unit ⊢
        cases starts : startsName (first :: rest) <;> simp [percent, names, unit, starts]

theorem readAt_append_apart
    {text : Text}
    (plain : '\\' ∉ text) :
    readAt (text ++ following) = ((readAt text).1, (readAt text).2 ++ following) := by
  simp only [readAt, startsName_append_apart apart plain, takeName_append_apart apart plain]
  split <;> rfl

theorem readHash_append_apart
    {text : Text}
    (plain : '\\' ∉ text) :
    readHash (text ++ following) = ((readHash text).1, (readHash text).2 ++ following) := by
  simp only [readHash, continuesName_append_apart apart plain, takeName_append_apart apart plain]
  split <;> rfl

end

/-! ## Unquoted URLs -/

/-- Characters that a URL takes up to its closing parenthesis, well formed or not. -/
structure StaysInUrl (body : Text) : Prop where
  closing : ')' ∉ body
  escape : '\\' ∉ body

theorem StaysInUrl.tail
    {first : Char}
    {rest : Text}
    (stays : StaysInUrl (first :: rest)) :
    first ≠ ')' ∧ first ≠ '\\' ∧ StaysInUrl rest := by
  obtain ⟨open', others⟩ := List.ne_and_not_mem_of_not_mem_cons stays.closing
  obtain ⟨unescaped, plain⟩ := List.ne_and_not_mem_of_not_mem_cons stays.escape
  exact ⟨open'.symm, unescaped.symm, others, plain⟩

variable
  {body : Text}
  (stays : StaysInUrl body)
  (rest : Text)

include stays

theorem takeBadUrl_closed : takeBadUrl (body ++ ')' :: rest) = (body ++ [')'], rest) := by
  induction body with
  | nil => rfl
  | cons first body inductionHypothesis =>
      obtain ⟨inside, unescaped, others⟩ := stays.tail
      rw [List.cons_append, takeBadUrl, inductionHypothesis others]
      · rfl
      · exact inside
      · exact fun _ escape => absurd escape unescaped
      · exact fun _ escape => absurd escape unescaped

theorem takeUrlEnd_closed : takeUrlEnd (body ++ ')' :: rest) = (body ++ [')'], rest) := by
  induction body with
  | nil => rfl
  | cons first body inductionHypothesis =>
      obtain ⟨inside, _, others⟩ := stays.tail
      by_cases blank : isBlank first = true
      · simp [takeUrlEnd, inside, blank, inductionHypothesis others]
      · simp [takeUrlEnd, inside, blank, takeBadUrl_closed others]

theorem takeUrl_closed : takeUrl (body ++ ')' :: rest) = (body ++ [')'], rest) := by
  induction body with
  | nil => simp [takeUrl]
  | cons first body inductionHypothesis =>
      obtain ⟨inside, unescaped, others⟩ := stays.tail
      have ending := takeUrlEnd_closed stays rest
      have bad := takeBadUrl_closed stays rest
      rw [List.cons_append] at ending bad ⊢
      rw [takeUrl, if_neg inside]
      split
      · exact ending
      split
      · exact bad
      · rw [inductionHypothesis others]
        rfl

/-- A URL that is closed, and has neither quotes nor escapes in it, is taken up to its
closing parenthesis. -/
theorem takeUrl?_closed (noQuote : ∀ c ∈ body, isQuote c = false) :
    takeUrl? (body ++ ')' :: rest) = some (body ++ [')'], rest) := by
  have ends : Text.headIs isBlank (')' :: rest) = false := rfl
  obtain ⟨blanks, left⟩ := Text.span_append_of_ends ends body
  have whole : body.takeWhile isBlank ++ body.dropWhile isBlank = body :=
    List.takeWhile_append_dropWhile
  have others : StaysInUrl (body.dropWhile isBlank) := by
    refine ⟨fun member => stays.closing ?_, fun member => stays.escape ?_⟩
    · exact (List.dropWhile_sublist _).mem member
    · exact (List.dropWhile_sublist _).mem member
  have taken := takeUrl_closed others rest
  -- The URL starts with a character of the body, or is empty.
  obtain ⟨first, tail, starts, plain⟩ : ∃ first tail,
      body.dropWhile isBlank ++ ')' :: rest = first :: tail ∧ isQuote first = false := by
    cases following : body.dropWhile isBlank with
    | nil => exact ⟨')', rest, rfl, rfl⟩
    | cons first tail =>
        have member : first ∈ body.dropWhile isBlank := by simp [following]
        have plain := noQuote first ((List.dropWhile_sublist _).mem member)
        exact ⟨first, tail ++ ')' :: rest, rfl, plain⟩
  rw [starts] at taken
  rw [takeUrl?, blanks, left, starts]
  simp only [plain, taken]
  rw [← List.append_assoc, whole]
  rfl

end SheetToken

end CssRescale
