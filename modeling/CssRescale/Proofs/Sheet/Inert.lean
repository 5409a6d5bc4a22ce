import CssRescale.Proofs.Sheet.Calm

/-!
Contract: readers of a style sheet pass over numbers with units.

The characters of numbers with units open and close nothing. If such a text ends in a
letter that is no hexadecimal digit, no escape and no literal ends with it, and a name
that goes on behind it is not that of a URL. So it is inert: a reader that comes to it
takes it as a part of what it reads, or as tokens without structure, and what is left
behind it does not depend on its characters.

Owns:
- inert texts in front of another text;
- names, escapes, literals, strings, comments and URLs that come to an inert text;
- the same readers on a text that an inert text follows: they end in it, whatever the
  inert text, or pass over the inert text, whatever it is.
-/

set_option autoImplicit false

namespace CssRescale

open Text (headIs)

namespace Sheet

/-! ## Inert texts -/

/-- The characters of numbers with units. -/
def isNumeric (c : Char) : Bool := c.isAlphanum || c == '+' || c == '-' || c == '.'

/-- The letters that are no hexadecimal digits and do not stand in `url`. -/
def settles (c : Char) : Bool :=
  c.isAlpha && !isHexDigit c && !(c.toLower == 'u' || c.toLower == 'r' || c.toLower == 'l')

/-- The text is `rest` with some characters of numbers before it, the last of which
settles them. -/
inductive InertBefore (rest : Text) : Text → Prop where
  | last {c : Char}
      (settled : settles c = true) :
      InertBefore rest (c :: rest)
  | cons {c : Char} {text : Text}
      (numeric : isNumeric c = true)
      (inert : InertBefore rest text) :
      InertBefore rest (c :: text)

theorem ne_of_isNumeric
    {c other : Char}
    (numeric : isNumeric c = true)
    (isOther : isNumeric other = false) :
    c ≠ other := by
  rintro rfl
  exact absurd (numeric.symm.trans isOther) nofun

theorem isAlpha_of_settles {c : Char} (settled : settles c = true) : c.isAlpha = true := by
  simp only [settles, Bool.and_eq_true] at settled
  exact settled.1.1

theorem isHexDigit_of_settles {c : Char} (settled : settles c = true) : isHexDigit c = false := by
  simp only [settles, Bool.and_eq_true, Bool.not_eq_true'] at settled
  exact settled.1.2

theorem isNumeric_of_settles {c : Char} (settled : settles c = true) : isNumeric c = true := by
  simp [isNumeric, Char.isAlphanum, isAlpha_of_settles settled]

section

variable {rest text : Text}

theorem InertBefore.length_lt (inert : InertBefore rest text) : rest.length < text.length := by
  induction inert with
  | last => exact Nat.lt_succ_self _
  | cons _ _ inductionHypothesis => exact Nat.lt_succ_of_lt inductionHypothesis

/-- An inert text starts with a character of numbers, and is inert behind it unless this
was the last one. -/
theorem InertBefore.exists_cons (inert : InertBefore rest text) :
    ∃ first tail, text = first :: tail ∧ isNumeric first = true ∧
      (settles first = true ∧ tail = rest ∨ InertBefore rest tail) := by
  cases inert with
  | last settled => exact ⟨_, _, rfl, isNumeric_of_settles settled, Or.inl ⟨settled, rfl⟩⟩
  | cons numeric inert => exact ⟨_, _, rfl, numeric, Or.inr inert⟩

theorem InertBefore.headIs_eq_false
    {other : Char}
    (inert : InertBefore rest text)
    (isOther : isNumeric other = false) :
    headIs (· == other) text = false := by
  obtain ⟨first, tail, rfl, numeric, -⟩ := inert.exists_cons
  simpa [headIs] using ne_of_isNumeric numeric isOther

/-- Characters that settle nothing may be taken off. -/
theorem InertBefore.of_cons
    {first : Char}
    (inert : InertBefore rest (first :: text))
    (unsettled : settles first = false) :
    InertBefore rest text := by
  cases inert with
  | last settled => exact absurd (settled.symm.trans unsettled) nofun
  | cons _ inert => exact inert

theorem InertBefore.dropWhile
    {holds : Char → Bool}
    (inert : InertBefore rest text)
    (unsettled : ∀ c, holds c = true → settles c = false) :
    InertBefore rest (text.dropWhile holds) := by
  induction inert with
  | @last c settled =>
      have stays : holds c = false := by
        cases inside : holds c with
        | false => rfl
        | true => exact absurd (settled.symm.trans (unsettled c inside)) nofun
      simpa [stays] using .last settled
  | @cons c text numeric inert inductionHypothesis =>
      cases inside : holds c with
      | false => simpa [inside] using .cons numeric inert
      | true => simpa [inside] using inductionHypothesis

theorem isBlank_of_isNumeric {c : Char} (numeric : isNumeric c = true) : isBlank c = false := by
  simp (disch := decide) [isBlank, ne_of_isNumeric numeric]

theorem isQuote_of_isNumeric {c : Char} (numeric : isNumeric c = true) : isQuote c = false := by
  simp (disch := decide) [isQuote, ne_of_isNumeric numeric]

theorem isNewline_of_isNumeric {c : Char} (numeric : isNumeric c = true) :
    isNewline c = false := by
  simp (disch := decide) [isNewline, ne_of_isNumeric numeric]

theorem toNat_of_isNumeric {c : Char} (numeric : isNumeric c = true) :
    43 ≤ c.toNat ∧ c.toNat ≤ 122 := by
  simp only [isNumeric, Bool.or_eq_true, beq_iff_eq] at numeric
  rcases numeric with ((alphanumeric | rfl) | rfl) | rfl
  · have ranges : ((decide (c.val ≥ 65 ∧ c.val ≤ 90) ||
        (decide (c.val ≥ 97) && decide (c.val ≤ 122))) ||
          (decide (c.val ≥ 48) && decide (c.val ≤ 57))) = true := alphanumeric
    simp only [Bool.or_eq_true, Bool.and_eq_true, decide_eq_true_eq, ge_iff_le,
      UInt32.le_iff_toNat_le] at ranges
    have bounds : (65 ≤ c.toNat ∧ c.toNat ≤ 90 ∨ 97 ≤ c.toNat ∧ c.toNat ≤ 122) ∨
        48 ≤ c.toNat ∧ c.toNat ≤ 57 := ranges
    omega
  all_goals decide

theorem isBadInUrl_of_isNumeric {c : Char} (numeric : isNumeric c = true) :
    SheetToken.isBadInUrl c = false := by
  have noQuote := isQuote_of_isNumeric numeric
  have noOpening : c ≠ '(' := ne_of_isNumeric numeric rfl
  obtain ⟨atLeast, atMost⟩ := toNat_of_isNumeric numeric
  have noDelete : c.toNat ≠ 127 := by omega
  have noControl : ¬ c.toNat < 32 := by omega
  simp [SheetToken.isBadInUrl, noQuote, noOpening, noDelete, noControl]

theorem InertBefore.startsWithNewline (inert : InertBefore rest text) :
    startsWithNewline text = false := by
  obtain ⟨first, tail, rfl, numeric, -⟩ := inert.exists_cons
  exact isNewline_of_isNumeric numeric

/-! ## Readers that come to an inert text -/

/-- A name that comes to an inert text ends in it, or goes on behind it with a letter in
it that does not stand in `url`. -/
inductive NameAcross (rest : Text) : Text × Text × Text → Prop where
  | within {name raw left : Text}
      (inert : InertBefore rest left) :
      NameAcross rest (name, raw, left)
  | beyond {name raw : Text} {c : Char}
      (member : c ∈ name)
      (settled : settles c = true) :
      NameAcross rest (name, raw, (takeName rest).2.2)

theorem NameAcross.prepend
    {name raw left : Text}
    (across : NameAcross rest (name, raw, left))
    (c : Char)
    (taken : Text) :
    NameAcross rest (c :: name, taken ++ raw, left) := by
  cases across with
  | within inert => exact .within inert
  | beyond member settled => exact .beyond (List.mem_cons_of_mem c member) settled

theorem InertBefore.takeName (inert : InertBefore rest text) :
    NameAcross rest (takeName text) := by
  induction inert with
  | @last c settled =>
      have unescaped : c ≠ '\\' := ne_of_isNumeric (isNumeric_of_settles settled) rfl
      have name : isNameChar c = true := isNameChar_of_isAlpha (isAlpha_of_settles settled)
      rw [Sheet.takeName, if_neg unescaped, if_pos name,
        nameChar_of_isAlpha (isAlpha_of_settles settled)]
      exact .beyond List.mem_cons_self settled
  | @cons c text numeric inert inductionHypothesis =>
      have unescaped : c ≠ '\\' := ne_of_isNumeric numeric rfl
      rw [Sheet.takeName, if_neg unescaped]
      split
      · exact inductionHypothesis.prepend (nameChar c) [c]
      · exact .within (.cons numeric inert)

theorem InertBefore.takeHex (inert : InertBefore rest text) (count : Nat) :
    InertBefore rest (takeHex count text).2 := by
  induction count generalizing text with
  | zero => exact inert
  | succ count inductionHypothesis =>
      obtain ⟨first, tail, rfl, -⟩ := inert.exists_cons
      rw [Sheet.takeHex]
      split
      next hex =>
        refine inductionHypothesis (inert.of_cons ?_)
        cases settled : settles first with
        | false => rfl
        | true => exact absurd (hex.symm.trans (isHexDigit_of_settles settled)) nofun
      next => exact inert

theorem InertBefore.takeBlank (inert : InertBefore rest text) : takeBlank text = ([], text) := by
  obtain ⟨first, tail, rfl, numeric, -⟩ := inert.exists_cons
  have noBlank := isBlank_of_isNumeric numeric
  rw [Sheet.takeBlank]
  · simp [noBlank]
  · exact fun _ carriageReturn _ => ne_of_isNumeric numeric rfl carriageReturn

/-- An escape that comes to an inert text takes a part of it, or all of it if that is a
single letter. -/
def EscapeAcross (rest text : Text) : Prop :=
  InertBefore rest (takeEscape text).2 ∨
    (takeEscape text).2 = rest ∧ settles (escapedChar text) = true

theorem InertBefore.takeEscape (inert : InertBefore rest text) : EscapeAcross rest text := by
  obtain ⟨first, tail, rfl, numeric, last | others⟩ := inert.exists_cons
  · obtain ⟨settled, rfl⟩ := last
    right
    simp [Sheet.takeEscape, escapedChar, isHexDigit_of_settles settled,
      nameChar_of_isAlpha (isAlpha_of_settles settled), settled]
  · left
    rw [Sheet.takeEscape]
    split
    next hex =>
      have left := inert.takeHex 6
      show InertBefore rest (Sheet.takeBlank (Sheet.takeHex 6 (first :: tail)).2).2
      rw [left.takeBlank]
      exact left
    next => exact others

/-- A name in which an escape comes to an inert text. -/
theorem EscapeAcross.takeName
    (across : EscapeAcross rest text)
    (goesOn : Sheet.startsWithNewline text = false) :
    NameAcross rest (Sheet.takeName ('\\' :: text)) := by
  rw [Sheet.takeName, if_pos rfl, goesOn]
  rcases across with left | ⟨left, settled⟩
  · exact left.takeName.prepend _ _
  · rw [left]
    exact .beyond List.mem_cons_self settled

/-! ## Literals, strings, comments and URLs -/

/-- A text whose first part settles nothing is inert behind that part. -/
theorem InertBefore.of_append
    {front left : Text}
    (inert : InertBefore rest (front ++ left))
    (unsettled : ∀ c ∈ front, settles c = false) :
    InertBefore rest left := by
  induction front with
  | nil => exact inert
  | cons first front inductionHypothesis =>
      apply inductionHypothesis
      · exact inert.of_cons (unsettled first List.mem_cons_self)
      · exact fun c member => unsettled c (List.mem_cons_of_mem first member)

/-- No literal ends with the character that settles an inert text. -/
theorem InertBefore.takeLiteral
    (inert : InertBefore rest text)
    (number : Token.startsNumber text = true) :
    InertBefore rest (Token.takeLiteral text).2 := by
  obtain ⟨numeral, taken, _⟩ := Token.takeLiteral_numeral number
  have none : numeral.text.any settles = false := by
    apply numeral.any_text_eq_false _ rfl rfl rfl
    · intro c mark
      simp only [isExponentMark, Bool.or_eq_true, beq_iff_eq] at mark
      rcases mark with rfl | rfl <;> rfl
    · intro c digit
      simp [settles, isHexDigit, digit]
  rw [← Token.takeLiteral_append text, taken] at inert
  apply inert.of_append
  intro c member
  simpa using List.any_eq_false.mp none c member

/-- A reader that passes over each character of numbers passes over an inert text. -/
theorem InertBefore.read_eq
    (inert : InertBefore rest text)
    (read : Text → Text)
    (passes : ∀ (c : Char) (tail : Text), isNumeric c = true → read (c :: tail) = read tail) :
    read text = read rest := by
  induction inert with
  | last settled => exact passes _ _ (isNumeric_of_settles settled)
  | cons numeric _ inductionHypothesis => exact (passes _ _ numeric).trans inductionHypothesis

theorem InertBefore.takeString
    {quote : Char}
    (inert : InertBefore rest text)
    (isQuote : isQuote quote = true) :
    (SheetToken.takeString quote text).2 = (SheetToken.takeString quote rest).2 := by
  apply inert.read_eq (fun text => (SheetToken.takeString quote text).2)
  intro c tail numeric
  have noQuote : c ≠ quote := by
    rintro rfl
    exact absurd (isQuote.symm.trans (isQuote_of_isNumeric numeric)) nofun
  have unescaped : c ≠ '\\' := ne_of_isNumeric numeric rfl
  simp [SheetToken.takeString, unescaped, noQuote, isNewline_of_isNumeric numeric]

theorem InertBefore.takeComment (inert : InertBefore rest text) :
    (Token.takeComment text).2.2 = (Token.takeComment rest).2.2 := by
  apply inert.read_eq (fun text => (Token.takeComment text).2.2)
  intro c tail numeric
  show (Token.takeComment (c :: tail)).2.2 = (Token.takeComment tail).2.2
  rw [Token.takeComment]
  exact fun _ star => absurd star (ne_of_isNumeric numeric rfl)

theorem InertBefore.takeBadUrl (inert : InertBefore rest text) :
    (SheetToken.takeBadUrl text).2 = (SheetToken.takeBadUrl rest).2 := by
  apply inert.read_eq (fun text => (SheetToken.takeBadUrl text).2)
  intro c tail numeric
  show (SheetToken.takeBadUrl (c :: tail)).2 = (SheetToken.takeBadUrl tail).2
  rw [SheetToken.takeBadUrl]
  · exact ne_of_isNumeric numeric rfl
  · exact fun _ escape => absurd escape (ne_of_isNumeric numeric rfl)
  · exact fun _ escape => absurd escape (ne_of_isNumeric numeric rfl)

/-- A character of numbers that follows a blank makes a URL bad. -/
theorem InertBefore.takeUrlEnd (inert : InertBefore rest text) :
    (SheetToken.takeUrlEnd text).2 = (SheetToken.takeBadUrl rest).2 := by
  rw [← inert.takeBadUrl]
  obtain ⟨first, tail, rfl, numeric, -⟩ := inert.exists_cons
  have inside : first ≠ ')' := ne_of_isNumeric numeric rfl
  have unescaped : first ≠ '\\' := ne_of_isNumeric numeric rfl
  simp [SheetToken.takeUrlEnd, SheetToken.takeBadUrl, inside, unescaped,
    isBlank_of_isNumeric numeric]

theorem InertBefore.takeUrl (inert : InertBefore rest text) :
    (SheetToken.takeUrl text).2 = (SheetToken.takeUrl rest).2 := by
  apply inert.read_eq (fun text => (SheetToken.takeUrl text).2)
  intro c tail numeric
  have inside : c ≠ ')' := ne_of_isNumeric numeric rfl
  have unescaped : c ≠ '\\' := ne_of_isNumeric numeric rfl
  simp [SheetToken.takeUrl, inside, unescaped, isBlank_of_isNumeric numeric,
    isBadInUrl_of_isNumeric numeric]

end

end Sheet

end CssRescale
