import CssRescale.Json.Text
import CssRescale.Proofs.Text.Runs

/-!
Contract: how strings are written in JSON text.

A character may stand for itself, be a letter behind a backslash, or be one or two units of
four hexadecimal digits. A string is written as any spelling of each of its characters,
between quotes, and it is read from each of its spellings.

Owns:
- blanks, and the grammar of strings;
- reading a string from what it is written as, one law for each spelling of a character.

Does not own: what is refused as no string.
-/

set_option autoImplicit false

namespace CssRescale.Json

/-! ## Blanks -/

/-- Texts that may stand between tokens. -/
def IsBlankText (text : Text) : Prop := ∀ c ∈ text, c ∈ [' ', '\t', '\n', '\r']

theorem isBlank_iff (c : Char) : isBlank c = true ↔ c ∈ [' ', '\t', '\n', '\r'] := by
  simp [isBlank, or_assoc]

theorem skipBlanks_run
    {blanks rest : Text}
    (areBlanks : IsBlankText blanks)
    (ends : Text.headIs isBlank rest = false) :
    skipBlanks (blanks ++ rest) = rest :=
  (Text.takeWhile_run (fun c member => (isBlank_iff c).mpr (areBlanks c member)) ends).2

theorem skipBlanks_eq_nil
    {blanks : Text}
    (areBlanks : IsBlankText blanks) :
    skipBlanks blanks = [] := by
  simpa using skipBlanks_run areBlanks (rfl : Text.headIs isBlank [] = false)

theorem skipBlanks_self
    {text : Text}
    (starts : Text.headIs isBlank text = false) :
    skipBlanks text = text :=
  skipBlanks_run (List.forall_mem_nil _) starts

theorem skipBlanks_skipBlanks (text : Text) : skipBlanks (skipBlanks text) = skipBlanks text :=
  skipBlanks_self (Text.headIs_dropWhile isBlank text)

/-! ## The grammar of strings -/

/-- The hexadecimal digits of a value. -/
def IsHexDigit (value : Nat) (digit : Char) : Prop :=
  "0123456789abcdef".toList[value]? = some digit ∨
    "0123456789ABCDEF".toList[value]? = some digit

/-- Four hexadecimal digits of a value, the highest one first. -/
inductive HexText : Nat → Text → Prop where
  | digits {high upper lower low : Nat} {first second third fourth : Char}
      (isFirst : IsHexDigit high first)
      (isSecond : IsHexDigit upper second)
      (isThird : IsHexDigit lower third)
      (isFourth : IsHexDigit low fourth) :
      HexText (0x1000 * high + 0x100 * upper + 0x10 * lower + low) [first, second, third, fourth]

/-- The letters that stand for a character behind a backslash, each with the character. -/
def shortEscapes : List (Char × Char) :=
  [('"', '"'), ('\\', '\\'), ('/', '/'), ('b', '\x08'), ('f', '\x0c'), ('n', '\n'), ('r', '\r'),
    ('t', '\t')]

/-- The spellings of a character in a string. -/
inductive CharText : Char → Text → Prop where
  | plain {c : Char}
      (notControl : 32 ≤ c.toNat)
      (notQuote : c ≠ '"')
      (notBackslash : c ≠ '\\') :
      CharText c [c]
  | short {letter c : Char}
      (isEscape : (letter, c) ∈ shortEscapes) :
      CharText c ['\\', letter]
  | unit {c : Char} {digits : Text}
      (hex : HexText c.toNat digits) :
      CharText c ('\\' :: 'u' :: digits)
  | pair {c : Char} {high low : Nat} {digits others : Text}
      (isHigh : 0xD800 ≤ high ∧ high < 0xDC00)
      (isLow : 0xDC00 ≤ low ∧ low < 0xE000)
      (joined : c.toNat = 0x10000 + (high - 0xD800) * 0x400 + (low - 0xDC00))
      (hex : HexText high digits)
      (hexLow : HexText low others) :
      CharText c ('\\' :: 'u' :: digits ++ '\\' :: 'u' :: others)

/-- The spellings of a text between the quotes of a string. -/
inductive BodyText : Text → Text → Prop where
  | nil : BodyText [] []
  | cons {c : Char} {spelling text body : Text}
      (first : CharText c spelling)
      (rest : BodyText text body) :
      BodyText (c :: text) (spelling ++ body)

/-- The characters that may stand for themselves. -/
def isPlain (c : Char) : Bool := 32 ≤ c.toNat && c != '"' && c != '\\'

/-- A text without special characters is a spelling of itself. -/
theorem bodyText_self
    {text : Text}
    (plain : text.all isPlain = true) :
    BodyText text text := by
  induction text with
  | nil => exact .nil
  | cons first rest inductionHypothesis =>
      rw [List.all_cons, Bool.and_eq_true] at plain
      obtain ⟨isPlain, others⟩ := plain
      simp only [Json.isPlain, Bool.and_eq_true, decide_eq_true_eq, bne_iff_ne] at isPlain
      obtain ⟨⟨notControl, notQuote⟩, notBackslash⟩ := isPlain
      exact .cons (.plain notControl notQuote notBackslash) (inductionHypothesis others)

/-! ## Reading -/

theorem hexDigit?_of_isHexDigit
    {value : Nat}
    {digit : Char}
    (isDigit : IsHexDigit value digit) :
    hexDigit? digit = some value := by
  have lowerCase :
      ∀ place : Fin 16, hexDigit? "0123456789abcdef".toList[place] = some place.val := by
    decide
  have upperCase :
      ∀ place : Fin 16, hexDigit? "0123456789ABCDEF".toList[place] = some place.val := by
    decide
  rcases isDigit with isDigit | isDigit
  · obtain ⟨inside, rfl⟩ := List.getElem?_eq_some_iff.mp isDigit
    exact lowerCase ⟨value, inside⟩
  · obtain ⟨inside, rfl⟩ := List.getElem?_eq_some_iff.mp isDigit
    exact upperCase ⟨value, inside⟩

theorem HexText.hexUnit?_eq
    {unit : Nat}
    {digits : Text}
    (hex : HexText unit digits) :
    ∃ first second third fourth, digits = [first, second, third, fourth] ∧
      hexUnit? first second third fourth = some unit := by
  obtain ⟨isFirst, isSecond, isThird, isFourth⟩ := hex
  refine ⟨_, _, _, _, rfl, ?_⟩
  rw [hexUnit?, hexDigit?_of_isHexDigit isFirst, hexDigit?_of_isHexDigit isSecond,
    hexDigit?_of_isHexDigit isThird, hexDigit?_of_isHexDigit isFourth]
  simp only [Option.bind_eq_bind, Option.bind_some, Option.pure_def, Option.some.injEq]
  omega

/-- No character is half of a surrogate pair. -/
theorem isSurrogate_eq_false (c : Char) :
    isHighSurrogate c.toNat = false ∧ isLowSurrogate c.toNat = false := by
  have valid : c.toNat < 0xD800 ∨ 0xDFFF < c.toNat ∧ c.toNat < 0x110000 := c.valid
  simp only [isHighSurrogate, isLowSurrogate, Bool.and_eq_false_iff, decide_eq_false_iff_not]
  omega

/-- A spelling of a character is read as the character, whatever follows. -/
theorem readString?_charText
    {c : Char}
    {spelling : Text}
    (spelled : CharText c spelling)
    (rest : Text) :
    readString? (spelling ++ rest) = withChar c (readString? rest) := by
  cases spelled with
  | plain notControl notQuote notBackslash =>
      have visible : ¬c.toNat < 32 := Nat.not_lt.mpr notControl
      simp [readString?, notBackslash, visible]
  | @short letter _ isEscape =>
      simp only [shortEscapes, List.mem_cons, Prod.mk.injEq, List.not_mem_nil, or_false] at isEscape
      rcases isEscape with ⟨rfl, rfl⟩ | ⟨rfl, rfl⟩ | ⟨rfl, rfl⟩ | ⟨rfl, rfl⟩ | ⟨rfl, rfl⟩ |
        ⟨rfl, rfl⟩ | ⟨rfl, rfl⟩ | ⟨rfl, rfl⟩
      all_goals simp [readString?, shortEscape?]
  | unit hex =>
      obtain ⟨first, second, third, fourth, rfl, isUnit⟩ := hex.hexUnit?_eq
      obtain ⟨notHigh, notLow⟩ := isSurrogate_eq_false c
      simp [readString?, isUnit, notHigh, notLow]
  | @pair _ high low _ _ isHigh isLow joined hex hexLow =>
      obtain ⟨first, second, third, fourth, rfl, isUnit⟩ := hex.hexUnit?_eq
      obtain ⟨fifth, sixth, seventh, eighth, rfl, isUnitToo⟩ := hexLow.hexUnit?_eq
      have firstIsLow : isLowSurrogate high = false := by
        simp only [isLowSurrogate, Bool.and_eq_false_iff, decide_eq_false_iff_not]
        omega
      have firstIsHigh : isHighSurrogate high = true := by simp [isHighSurrogate, isHigh]
      have secondIsLow : isLowSurrogate low = true := by simp [isLowSurrogate, isLow]
      simp [readString?, isUnit, isUnitToo, firstIsLow, firstIsHigh, secondIsLow, pairedChar,
        ← joined]

/-- A string is read from each of its spellings, up to the quote that ends it. -/
theorem readString?_bodyText
    {text body : Text}
    (spelled : BodyText text body)
    (rest : Text) :
    readString? (body ++ '"' :: rest) = some (text, rest) := by
  induction spelled with
  | nil => rw [List.nil_append, readString?]
  | cons first _ inductionHypothesis =>
      rw [List.append_assoc, readString?_charText first, inductionHypothesis]
      rfl

end CssRescale.Json
