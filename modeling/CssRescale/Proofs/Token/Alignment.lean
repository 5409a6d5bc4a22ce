import CssRescale.Proofs.Token.Number
import CssRescale.Proofs.Token.Octets
import CssRescale.Proofs.Token.Resume

/-!
Contract: on the bytes of a text the readers of bytes take whole characters.

All bytes of a character beyond ASCII are beyond ASCII, and none of them stops a reader.
So where an escape has taken the first byte of such a character, the others are taken one
by one, and a reader stops only where a character starts. On the bytes of a text each
reader therefore takes and leaves the bytes of what the reader of characters takes and
leaves.

Owns:
- classes of ASCII, tested on the bytes of a text;
- each reader of bytes compared with the reader of characters.

Does not own: the choice of a reader.
-/

set_option autoImplicit false

namespace CssRescale.Octets

open Text (headIs)
open Utf8 (encode encodeChar isContinuation headCases)

/-! ## Classes of ASCII -/

/-- Only characters of ASCII are in the class. -/
def IsAscii (holds : Char → Bool) : Prop := ∀ c, holds c = true → c.toNat < 0x80

theorem IsAscii.eq_false
    {holds : Char → Bool}
    {c : Char}
    (isAscii : IsAscii holds)
    (code : 0x80 ≤ c.toNat) :
    holds c = false :=
  Bool.eq_false_iff.mpr fun inside => absurd (isAscii c inside) (Nat.not_lt.mpr code)

theorem isAscii_of_mem
    {holds : Char → Bool}
    (members : List Char)
    (each : (members.all fun member => member.toNat < 0x80) = true)
    (inside : ∀ c, holds c = true → c ∈ members) :
    IsAscii holds := fun c holding =>
  of_decide_eq_true (List.all_eq_true.mp each c (inside c holding))

theorem isAscii_eq {c : Char} (code : c.toNat < 0x80) : IsAscii (· == c) := by
  intro other same
  rw [eq_of_beq same]
  exact code

theorem IsAscii.or
    {first second : Char → Bool}
    (isFirst : IsAscii first)
    (isSecond : IsAscii second) :
    IsAscii fun c => first c || second c :=
  fun c holds => (Bool.or_eq_true_iff.mp holds).elim (isFirst c) (isSecond c)

theorem isAscii_isDigit : IsAscii Char.isDigit := by
  intro c digit
  simp only [Char.isDigit, Bool.and_eq_true, decide_eq_true_eq, UInt32.le_iff_toNat_le] at digit
  exact Nat.lt_of_le_of_lt digit.2 (by decide)

theorem isAscii_isAlpha : IsAscii Char.isAlpha := by
  intro c letter
  rcases Bool.or_eq_true_iff.mp letter with upper | lower
  · have last : c.val ≤ 90 := (of_decide_eq_true upper).2
    exact Nat.lt_of_le_of_lt (UInt32.le_iff_toNat_le.mp last) (by decide)
  · have last : c.val ≤ 122 := of_decide_eq_true (Bool.and_eq_true_iff.mp lower).2
    exact Nat.lt_of_le_of_lt (UInt32.le_iff_toNat_le.mp last) (by decide)

theorem isAscii_isBlank : IsAscii isBlank :=
  isAscii_of_mem [' ', '\t', '\n', '\r', '\x0c'] (by decide) fun c blank => by
    simpa [isBlank, or_assoc] using blank

theorem isAscii_isQuote : IsAscii isQuote :=
  isAscii_of_mem ['"', '\''] (by decide) fun c quote => by simpa [isQuote] using quote

theorem isAscii_isSign : IsAscii isSign :=
  isAscii_of_mem ['+', '-'] (by decide) fun c sign => by simpa [isSign] using sign

theorem isAscii_isExponentMark : IsAscii isExponentMark :=
  isAscii_of_mem ['e', 'E'] (by decide) fun c mark => by simpa [isExponentMark] using mark

theorem isAscii_isOperator : IsAscii Token.isOperator :=
  isAscii_of_mem ['/', '*', '+', '-', '=', '<', '>', ':', ';'] (by decide) fun c operator => by
    simpa [Token.isOperator, or_assoc] using operator

theorem isAscii_endsWord : IsAscii Token.endsWord := by
  intro c ends
  simp only [Token.endsWord, Bool.or_eq_true, beq_iff_eq, or_assoc] at ends
  rcases ends with blank | quote | mark
  · exact isAscii_isBlank c blank
  · exact isAscii_isQuote c quote
  · rcases mark with rfl | rfl | rfl | rfl | rfl | rfl | rfl | rfl | rfl | rfl | rfl <;> decide

theorem isAscii_endsIdentifier : IsAscii fun c => !Token.continuesIdentifier c := by
  intro c ends
  simp only [Token.continuesIdentifier, isNonAscii, Bool.not_or, Bool.and_eq_true,
    Bool.not_eq_true', decide_eq_false_iff_not, Nat.not_le] at ends
  exact ends.2

/-! ## Bytes of one character -/

/-- The byte of a character of ASCII is tested as the character is. -/
theorem ascii_ofNat
    {c : Char}
    (code : c.toNat < 0x80)
    (holds : Char → Bool) :
    ascii holds (UInt8.ofNat c.toNat) = holds c := by
  have number := Utf8.toNat_ofNat (show c.toNat < 256 by omega)
  have small : UInt8.ofNat c.toNat < 0x80 := by
    rw [UInt8.lt_iff_toNat_lt, number]
    exact code
  rw [ascii, number, Char.ofNat_toNat, decide_eq_true small, Bool.true_and]

theorem ascii_eq_false
    {byte : UInt8}
    (beyond : 0x80 ≤ byte)
    (holds : Char → Bool) :
    ascii holds byte = false := by
  have large : ¬byte < 0x80 := UInt8.not_lt.mpr beyond
  rw [ascii, decide_eq_false large, Bool.false_and]

/-- The byte of a character of ASCII is no part of a character beyond ASCII. -/
theorem not_beyond_ofNat {c : Char} (code : c.toNat < 0x80) : ¬0x80 ≤ UInt8.ofNat c.toNat := by
  rw [UInt8.le_iff_toNat_le, Utf8.toNat_ofNat (by omega)]
  exact Nat.not_le.mpr code

theorem beyond_of_starts {byte : UInt8} (starts : 0xC2 ≤ byte) : 0x80 ≤ byte :=
  UInt8.le_trans (by decide) starts

theorem beyond_of_isContinuation
    {byte : UInt8}
    (goesOn : isContinuation byte = true) :
    0x80 ≤ byte :=
  of_decide_eq_true (Bool.and_eq_true_iff.mp goesOn).1

/-- All bytes of a character beyond ASCII are beyond ASCII. -/
theorem beyond_of_mem_encodeChar
    {c : Char}
    (code : ¬c.toNat < 0x80) :
    ∀ byte ∈ encodeChar c, 0x80 ≤ byte := by
  rcases Utf8.encodeChar_cases c with ⟨small, _⟩ | ⟨_, start, more, bytes, starts, _, goOn⟩
  · exact absurd small code
  · rw [bytes]
    exact List.forall_mem_cons.mpr ⟨beyond_of_starts starts,
      fun byte member => beyond_of_isContinuation (goOn byte member)⟩

/-- Every byte of a character is tested as the character is. -/
theorem ascii_of_mem_encodeChar
    {holds : Char → Bool}
    (isAscii : IsAscii holds)
    {c : Char}
    {byte : UInt8}
    (member : byte ∈ encodeChar c) :
    ascii holds byte = holds c := by
  by_cases code : c.toNat < 0x80
  · rw [Utf8.encodeChar_one code, List.mem_singleton] at member
    rw [member, ascii_ofNat code]
  · rw [isAscii.eq_false (Nat.le_of_not_lt code)]
    exact ascii_eq_false (beyond_of_mem_encodeChar code byte member) holds

/-- The first byte of a text is tested as the first character is. If that is a character of
ASCII, it is the byte, and the other bytes are those of the rest. -/
theorem exists_encode_eq_cons (first : Char) (rest : Text) :
    ∃ start more, encode (first :: rest) = start :: more ∧
      ((∀ holds, IsAscii holds → ascii holds start = holds first) ∧
        isBeyond start = isNonAscii first) ∧
      (first.toNat < 0x80 → encodeChar first = [start] ∧ more = encode rest) := by
  rcases Utf8.encodeChar_cases first with ⟨code, bytes⟩ | ⟨code, start, more, bytes, starts, -, goOn⟩
  · refine ⟨_, encode rest, by rw [Utf8.encode_cons, bytes]; rfl,
      ⟨fun holds _ => ascii_ofNat code holds, ?_⟩, fun _ => ⟨bytes, rfl⟩⟩
    rw [isBeyond, isNonAscii, decide_eq_false (not_beyond_ofNat code),
      decide_eq_false (Nat.not_le.mpr code)]
  · refine ⟨start, more ++ encode rest, by rw [Utf8.encode_cons, bytes]; rfl,
      ⟨fun holds isAscii => ?_, ?_⟩, fun small => absurd small (Nat.not_lt.mpr code)⟩
    · rw [isAscii.eq_false code, ascii_eq_false (beyond_of_starts starts)]
    · rw [isBeyond, isNonAscii, decide_eq_true (beyond_of_starts starts), decide_eq_true code]

theorem isEmpty_encode (text : Text) : (encode text).isEmpty = text.isEmpty := by
  cases text with
  | nil => rfl
  | cons first rest =>
      obtain ⟨start, more, bytes, -⟩ := exists_encode_eq_cons first rest
      rw [bytes]
      rfl

/-! ## Runs of one class -/

/-- The bytes of the parts of a text. -/
def encodeBoth (parts : Text × Text) : Bytes × Bytes := (encode parts.1, encode parts.2)

section

variable
  {holds : Char → Bool}
  (isAscii : IsAscii holds)
  (text : Text)

include isAscii

theorem startsWith_encode : startsWith holds (encode text) = headIs holds text := by
  have view := headCases text
  generalize encode text = octets at view ⊢
  cases view with
  | nil => rfl
  | ascii code => exact ascii_ofNat code holds
  | beyond code starts goOn =>
      rw [headIs, isAscii.eq_false code]
      exact ascii_eq_false (beyond_of_starts starts) holds

theorem takeWhile_encode :
    (encode text).takeWhile (ascii holds) = encode (text.takeWhile holds) ∧
      (encode text).dropWhile (ascii holds) = encode (text.dropWhile holds) := by
  induction text with
  | nil => exact ⟨rfl, rfl⟩
  | cons c rest inductionHypothesis =>
      rw [Utf8.encode_cons, List.takeWhile_cons, List.dropWhile_cons]
      cases inside : holds c with
      | true =>
          have run : ∀ byte ∈ encodeChar c, ascii holds byte = true := fun byte member =>
            (ascii_of_mem_encodeChar isAscii member).trans inside
          rw [List.takeWhile_append_of_pos run, List.dropWhile_append_of_pos run, if_pos rfl,
            if_pos rfl, inductionHypothesis.1, inductionHypothesis.2]
          exact ⟨rfl, rfl⟩
      | false =>
          have ends : startsWith holds (encode (c :: rest)) = false := by
            rw [startsWith_encode isAscii, headIs, inside]
          rw [← Utf8.encode_cons]
          cases bytes : encode (c :: rest) with
          | nil => exact ⟨rfl, bytes.symm⟩
          | cons first others =>
              rw [bytes, startsWith] at ends
              rw [List.takeWhile_cons, List.dropWhile_cons, ends]
              exact ⟨rfl, bytes.symm⟩

end

/-! ## Runs with escapes -/

/-- A byte is taken alone if it does not stop, and is no backslash with another byte
behind it. -/
theorem takeEscaped_cons
    {stops : UInt8 → Bool}
    {first : UInt8}
    {rest : Bytes}
    (noEscape : first = 0x5C → rest = []) :
    takeEscaped stops (first :: rest) =
      if stops first then ([], first :: rest)
      else (first :: (takeEscaped stops rest).1, (takeEscaped stops rest).2) := by
  rw [takeEscaped]
  intro escaped behind isBackslash following
  rw [noEscape isBackslash] at following
  exact absurd following nofun

/-- Bytes beyond ASCII are all taken. -/
theorem takeEscaped_beyond
    (holds : Char → Bool)
    {run : Bytes}
    (beyond : ∀ byte ∈ run, 0x80 ≤ byte)
    (rest : Bytes) :
    takeEscaped (ascii holds) (run ++ rest) =
      (run ++ (takeEscaped (ascii holds) rest).1, (takeEscaped (ascii holds) rest).2) := by
  induction run with
  | nil => rfl
  | cons byte run inductionHypothesis =>
      have here := beyond byte List.mem_cons_self
      have others := inductionHypothesis fun other member =>
        beyond other (List.mem_cons_of_mem _ member)
      rw [List.cons_append, takeEscaped_cons fun same => absurd (same ▸ here) (by decide),
        ascii_eq_false here, others]
      rfl

/-- The bytes of a character behind the first one are beyond ASCII. -/
theorem exists_encodeChar_eq_cons (c : Char) :
    ∃ start more, encodeChar c = start :: more ∧ ∀ byte ∈ more, 0x80 ≤ byte := by
  rcases Utf8.encodeChar_cases c with ⟨_, bytes⟩ | ⟨_, start, more, bytes, _, _, goOn⟩
  · exact ⟨_, [], bytes, nofun⟩
  · exact ⟨start, more, bytes, fun byte member => beyond_of_isContinuation (goOn byte member)⟩

theorem eq_backslash_of_ofNat
    {c : Char}
    (code : c.toNat < 0x80)
    (same : UInt8.ofNat c.toNat = 0x5C) :
    c = '\\' := by
  have number := Utf8.toNat_ofNat (show c.toNat < 256 by omega)
  rw [same] at number
  rw [← Char.ofNat_toNat c, ← number]
  rfl

/-- A character of ASCII is taken alone if it does not stop, and is no backslash with
another character behind it. -/
theorem takeEscaped_encode_ascii
    {first : Char}
    {rest : Text}
    (holds : Char → Bool)
    (code : first.toNat < 0x80)
    (noEscape : ∀ escaped behind, first = '\\' → rest = escaped :: behind → False) :
    takeEscaped (ascii holds) (encode (first :: rest)) =
      if holds first then ([], encode (first :: rest))
      else (UInt8.ofNat first.toNat :: (takeEscaped (ascii holds) (encode rest)).1,
        (takeEscaped (ascii holds) (encode rest)).2) := by
  have octets : encode (first :: rest) = UInt8.ofNat first.toNat :: encode rest := by
    rw [Utf8.encode_cons, Utf8.encodeChar_one code, List.singleton_append]
  rw [octets, takeEscaped_cons, ascii_ofNat code]
  intro isBackslash
  cases rest with
  | nil => rfl
  | cons escaped behind => exact (noEscape _ _ (eq_backslash_of_ofNat code isBackslash) rfl).elim

theorem takeEscaped_encode
    {holds : Char → Bool}
    (isAscii : IsAscii holds)
    (text : Text) :
    takeEscaped (ascii holds) (encode text) = encodeBoth (Text.takeEscaped holds text) := by
  fun_induction Text.takeEscaped holds text with
  | case1 => rfl
  | case2 escaped rest taken left taking inductionHypothesis =>
      -- The escape takes the first byte of the character, and the others follow one by one.
      obtain ⟨start, more, bytes, beyond⟩ := exists_encodeChar_eq_cons escaped
      have octets : encode ('\\' :: escaped :: rest) = 0x5C :: start :: (more ++ encode rest) := by
        rw [Utf8.encode_cons, Utf8.encode_cons, bytes]
        rfl
      have parts : encode ('\\' :: escaped :: taken) = 0x5C :: start :: (more ++ encode taken) := by
        rw [Utf8.encode_cons, Utf8.encode_cons, bytes]
        rfl
      rw [taking] at inductionHypothesis
      rw [octets, takeEscaped, takeEscaped_beyond holds beyond, inductionHypothesis, encodeBoth,
        encodeBoth, parts]
  | case3 first rest noEscape stops =>
      rw [takeEscaped_encode_ascii holds (isAscii first stops) noEscape, if_pos stops]
      rfl
  | case4 first rest noEscape goesOn taken left taking inductionHypothesis =>
      rw [taking] at inductionHypothesis
      by_cases code : first.toNat < 0x80
      · rw [takeEscaped_encode_ascii holds code noEscape, if_neg goesOn, inductionHypothesis,
          encodeBoth, encodeBoth, Utf8.encode_cons, Utf8.encodeChar_one code,
          List.singleton_append]
      · rw [Utf8.encode_cons, takeEscaped_beyond holds (beyond_of_mem_encodeChar code),
          inductionHypothesis]
        rfl

theorem isContinuation_ofNat_eq_false
    {c : Char}
    (code : c.toNat < 0x80) :
    isContinuation (UInt8.ofNat c.toNat) = false := by
  rw [isContinuation, decide_eq_false (not_beyond_ofNat code), Bool.false_and]

theorem isContinuation_eq_false_of_starts
    {byte : UInt8}
    (starts : 0xC2 ≤ byte) :
    isContinuation byte = false := by
  have large : ¬byte ≤ 0xBF := fun small => absurd (UInt8.le_trans starts small) (by decide)
  rw [isContinuation, decide_eq_false large, Bool.and_false]

/-- The bytes of a text do not start with one that goes on. -/
theorem takeWhile_isContinuation_encode (text : Text) :
    (encode text).takeWhile isContinuation = [] ∧
      (encode text).dropWhile isContinuation = encode text := by
  have view := headCases text
  generalize encode text = octets at view ⊢
  cases view with
  | nil => exact ⟨rfl, rfl⟩
  | ascii code =>
      rw [List.takeWhile_cons, List.dropWhile_cons, isContinuation_ofNat_eq_false code]
      exact ⟨rfl, rfl⟩
  | beyond code starts goOn =>
      rw [List.takeWhile_cons, List.dropWhile_cons, isContinuation_eq_false_of_starts starts]
      exact ⟨rfl, rfl⟩

/-- Where the parts are those of a text, there is nothing to go on to. -/
theorem realign_encodeBoth (parts : Text × Text) : realign (encodeBoth parts) = encodeBoth parts := by
  obtain ⟨taken, left⟩ := takeWhile_isContinuation_encode parts.2
  rw [realign, encodeBoth, taken, left, List.append_nil]

/-! ## Numbers -/

theorem takeDigits_encode (text : Text) :
    takeDigits (encode text) = encodeBoth (Text.takeDigits text) := by
  obtain ⟨taken, left⟩ := takeWhile_encode isAscii_isDigit text
  rw [takeDigits, taken, left]
  rfl

theorem startsWithDigit_encode (text : Text) :
    startsWith Char.isDigit (encode text) = Text.startsWithDigit text := by
  rw [startsWith_encode isAscii_isDigit, Text.startsWithDigit_eq]

theorem takeSign_encode (text : Text) : takeSign (encode text) = encodeBoth (Text.takeSign text) := by
  cases text with
  | nil => rfl
  | cons first rest =>
      obtain ⟨start, more, bytes, ⟨tested, -⟩, whole⟩ := exists_encode_eq_cons first rest
      rw [bytes, takeSign, tested _ isAscii_isSign, Text.takeSign]
      split
      case isTrue sign =>
        obtain ⟨alone, rfl⟩ := whole (isAscii_isSign first sign)
        rw [encodeBoth, Utf8.encode_cons, alone]
        rfl
      case isFalse => rw [encodeBoth, bytes]; rfl

theorem startsFraction_encode (text : Text) :
    startsFraction (encode text) = Numeral.startsFraction text := by
  cases text with
  | nil => rfl
  | cons first rest =>
      obtain ⟨start, more, bytes, ⟨tested, -⟩, whole⟩ := exists_encode_eq_cons first rest
      rw [bytes, startsFraction, tested _ (isAscii_eq (by decide))]
      by_cases point : first = '.'
      · subst point
        obtain ⟨-, rfl⟩ := whole (by decide)
        exact startsWithDigit_encode rest
      · rw [beq_false_of_ne point, Numeral.startsFraction_of_ne point, Bool.false_and]

theorem takeFraction_encode (text : Text) :
    takeFraction (encode text) = encodeBoth (Token.takeFraction text) := by
  cases text with
  | nil => rfl
  | cons first rest =>
      obtain ⟨start, more, bytes, -, whole⟩ := exists_encode_eq_cons first rest
      rw [bytes, takeFraction, ← bytes, startsFraction_encode]
      cases fraction : Numeral.startsFraction (first :: rest) with
      | false =>
          rw [Token.takeFraction_of_startsFraction_eq_false fraction]
          rfl
      | true =>
          by_cases point : first = '.'
          · subst point
            obtain ⟨alone, rfl⟩ := whole (by decide)
            have digit : Text.startsWithDigit rest = true := fraction
            rw [if_pos rfl, takeDigits_encode, Token.takeFraction, if_pos digit, encodeBoth,
              encodeBoth, Utf8.encode_cons, alone]
            rfl
          · rw [Numeral.startsFraction_of_ne point] at fraction
            cases fraction

theorem takeExponent_encode (text : Text) :
    takeExponent (encode text) = encodeBoth (Token.takeExponent text) := by
  cases text with
  | nil => rfl
  | cons first rest =>
      obtain ⟨start, more, bytes, ⟨tested, -⟩, whole⟩ := exists_encode_eq_cons first rest
      rw [bytes, takeExponent, Token.takeExponent, tested _ isAscii_isExponentMark]
      cases isMark : isExponentMark first with
      | false =>
          simp only [Bool.false_and, Bool.false_eq_true, if_false, encodeBoth, bytes]
          rfl
      | true =>
          obtain ⟨alone, rfl⟩ := whole (isAscii_isExponentMark first isMark)
          simp only [takeSign_encode, encodeBoth, startsWithDigit_encode, Bool.true_and,
            takeDigits_encode]
          split
          · simp only [List.cons_append, Utf8.encode_cons, alone, Utf8.encode_append,
              List.nil_append]
          · simp only [bytes]
            rfl

theorem takeLiteral_encode (text : Text) :
    takeLiteral (encode text) = encodeBoth (Token.takeLiteral text) := by
  simp only [takeLiteral, Token.takeLiteral, takeSign_encode, encodeBoth, takeDigits_encode,
    takeFraction_encode, takeExponent_encode, Utf8.encode_append]

theorem takeIdentifier_encode (text : Text) :
    takeIdentifier (encode text) = encodeBoth (Token.takeIdentifier text) := by
  rw [takeIdentifier, takeEscaped_encode isAscii_endsIdentifier, realign_encodeBoth]
  rfl

theorem startsUnit_encode (text : Text) : startsUnit (encode text) = Token.startsUnit text := by
  cases text with
  | nil => rfl
  | cons first rest =>
      obtain ⟨start, more, bytes, ⟨tested, beyond⟩, whole⟩ := exists_encode_eq_cons first rest
      rw [bytes, startsUnit, tested _ (isAscii_isAlpha.or (isAscii_eq (by decide))), beyond,
        tested _ (isAscii_eq (by decide)), Token.startsUnit_cons, Token.startsIdentifier]
      by_cases backslash : first = '\\'
      · obtain ⟨-, rfl⟩ := whole (by rw [backslash]; decide)
        rw [isEmpty_encode]
      · rw [beq_false_of_ne backslash, Bool.false_and, Bool.false_and]

theorem takeUnit_encode (text : Text) :
    takeUnit (encode text) = encodeBoth (Token.takeUnit text) := by
  rw [takeUnit, startsWith_encode (isAscii_eq (by decide)), startsUnit_encode]
  cases percent : headIs (· == '%') text with
  | true =>
      cases text with
      | nil => exact absurd percent nofun
      | cons first rest =>
          obtain rfl := eq_of_beq percent
          rw [if_pos rfl, List.splitAt_eq]
          rfl
  | false =>
      cases unit : Token.startsUnit text with
      | true =>
          rw [Token.takeUnit_of_startsUnit unit]
          exact takeIdentifier_encode text
      | false =>
          rw [Token.takeUnit_of_no_unit percent unit]
          rfl

/-! ## Strings and comments -/

/-- Where a run ends before some text, its first character stops. -/
theorem stops_of_endsRun
    {stops : Char → Bool}
    {first : Char}
    {rest : Text}
    (ends : Text.endsRun stops (first :: rest) = true) :
    stops first = true := by
  unfold Text.endsRun at ends
  split at ends
  case h_1 none => exact absurd none nofun
  case h_2 => exact absurd ends nofun
  case h_3 same =>
    obtain ⟨rfl, -⟩ := List.cons.inj same
    exact ends

theorem takeString_encode
    {quote : Char}
    (isAscii : quote.toNat < 0x80)
    (text : Text) :
    takeString quote (encode text) =
      (encode (Token.takeString quote text).1, (Token.takeString quote text).2.1,
        encode (Token.takeString quote text).2.2) := by
  have ends := Text.endsRun_takeEscaped (· == quote) text
  rw [takeString, takeEscaped_encode (isAscii_eq isAscii), Token.takeString]
  generalize Text.takeEscaped (· == quote) text = parts at ends ⊢
  obtain ⟨body, left⟩ := parts
  cases left with
  | nil => rfl
  | cons closing rest =>
      have same : (closing == quote) = true := @stops_of_endsRun (· == quote) closing rest ends
      obtain rfl := eq_of_beq same
      obtain ⟨start, more, bytes, -, whole⟩ := exists_encode_eq_cons closing rest
      obtain ⟨alone, rfl⟩ := whole isAscii
      have closed : encode (body ++ [closing]) = encode body ++ [start] := by
        rw [Utf8.encode_append, Utf8.encode_cons, alone]
        rfl
      simp only [encodeBoth, bytes, closed]

/-- Bytes beyond ASCII do not end a comment. -/
theorem takeComment_beyond
    {run : Bytes}
    (beyond : ∀ byte ∈ run, 0x80 ≤ byte)
    (rest : Bytes) :
    takeComment (run ++ rest) =
      (run ++ (takeComment rest).1, (takeComment rest).2.1, (takeComment rest).2.2) := by
  induction run with
  | nil => rfl
  | cons byte run inductionHypothesis =>
      have here := ascii_eq_false (beyond byte List.mem_cons_self) (· == '*')
      have others := inductionHypothesis fun other member =>
        beyond other (List.mem_cons_of_mem _ member)
      rw [List.cons_append, takeComment, here, Bool.false_and, others]
      rfl

theorem takeComment_encode (text : Text) :
    takeComment (encode text) =
      (encode (Token.takeComment text).1, (Token.takeComment text).2.1,
        encode (Token.takeComment text).2.2) := by
  fun_induction Token.takeComment text with
  | case1 => rfl
  | case2 rest => rfl
  | case3 first rest goesOn taken terminated left taking inductionHypothesis =>
      rw [taking] at inductionHypothesis
      by_cases code : first.toNat < 0x80
      · have noEnd : (first == '*' && headIs (· == '/') rest) = false := by
          refine Bool.eq_false_iff.mpr fun ends => ?_
          obtain ⟨star, slash⟩ := Bool.and_eq_true_iff.mp ends
          cases rest with
          | nil => cases slash
          | cons second behind => exact goesOn behind (eq_of_beq star) (by rw [eq_of_beq slash])
        rw [Utf8.encode_cons, Utf8.encodeChar_one code, List.singleton_append, takeComment,
          ascii_ofNat code, startsWith_encode (isAscii_eq (by decide)), noEnd,
          inductionHypothesis, Utf8.encode_cons, Utf8.encodeChar_one code]
        rfl
      · rw [Utf8.encode_cons, takeComment_beyond (beyond_of_mem_encodeChar code),
          inductionHypothesis]
        rfl

/-! ## The kind of the next token -/

theorem startsNumber_encode (text : Text) : startsNumber (encode text) = Token.startsNumber text := by
  rw [startsNumber, takeSign_encode, encodeBoth, startsWithDigit_encode, startsFraction_encode,
    Token.startsNumber_eq]

theorem followsDash_encode (text : Text) :
    followsDash (encode text) = headIs Token.followsDash text := by
  cases text with
  | nil => rfl
  | cons first rest =>
      obtain ⟨start, more, bytes, ⟨tested, beyond⟩, -⟩ := exists_encode_eq_cons first rest
      rw [bytes, followsDash, tested _ ((isAscii_isAlpha.or (isAscii_eq (by decide))).or
        (isAscii_eq (by decide))), beyond]
      rfl

theorem startsDashedWord_encode (text : Text) :
    startsDashedWord (encode text) = Token.startsDashedWord text := by
  cases text with
  | nil => rfl
  | cons first rest =>
      obtain ⟨start, more, bytes, ⟨tested, -⟩, whole⟩ := exists_encode_eq_cons first rest
      rw [bytes, startsDashedWord, tested _ (isAscii_eq (by decide)), Token.startsDashedWord_cons]
      by_cases dash : first = '-'
      · obtain ⟨-, rfl⟩ := whole (by rw [dash]; decide)
        rw [followsDash_encode]
      · rw [beq_false_of_ne dash, Bool.false_and, Bool.false_and]

/-! ## One token -/

/-- A token and the text behind it, as bytes. -/
def encodeResult (result : Token × Text) : OctetToken × Bytes :=
  (result.1.octets, encode result.2)

theorem readNumber_encode (text : Text) :
    readNumber (encode text) = encodeResult (Token.readNumber text) := by
  simp only [readNumber, Token.readNumber, takeLiteral_encode, encodeBoth, takeUnit_encode,
    encodeResult, Token.octets, Utf8.encode_append]

theorem readWord_encode (text : Text) :
    readWord (encode text) = encodeResult (Token.readWord text) := by
  rw [readWord, takeEscaped_encode isAscii_endsWord, realign_encodeBoth]
  rfl

section

variable
  {first : Char}
  {rest : Text}
  {start : UInt8}
  {more : Bytes}
  (bytes : encode (first :: rest) = start :: more)

include bytes

/-- The first byte is tested as the first character is. -/
theorem ascii_start {holds : Char → Bool} (isAscii : IsAscii holds) :
    ascii holds start = holds first := by
  obtain ⟨start', more', bytes', ⟨tested, -⟩, -⟩ := exists_encode_eq_cons first rest
  obtain ⟨rfl, rfl⟩ := List.cons.inj (bytes.symm.trans bytes')
  exact tested holds isAscii

/-- A first character of ASCII is one byte. -/
theorem start_of_ascii (code : first.toNat < 0x80) : encodeChar first = [start] ∧ more = encode rest := by
  obtain ⟨start', more', bytes', -, whole⟩ := exists_encode_eq_cons first rest
  obtain ⟨rfl, rfl⟩ := List.cons.inj (bytes.symm.trans bytes')
  exact whole code

theorem startsComment_encode :
    (ascii (· == '/') start && startsWith (· == '*') more) =
      Token.startsComment (first :: rest) := by
  rw [ascii_start bytes (isAscii_eq (by decide)), Token.startsComment_cons]
  by_cases slash : first = '/'
  · obtain ⟨-, rfl⟩ := start_of_ascii bytes (by rw [slash]; decide)
    rw [startsWith_encode (isAscii_eq (by decide))]
  · rw [beq_false_of_ne slash, Bool.false_and, Bool.false_and]

theorem readString_encode (quote : isQuote first = true) :
    readString start more = encodeResult (Token.readString first rest) := by
  have code := isAscii_isQuote first quote
  obtain ⟨alone, rfl⟩ := start_of_ascii bytes code
  have same : Char.ofNat start.toNat = first := by
    rw [Utf8.encodeChar_one code, List.cons.injEq] at alone
    rw [← alone.1, Utf8.toNat_ofNat (by omega), Char.ofNat_toNat]
  rw [readString, same, takeString_encode code, Token.readString, encodeResult, Token.octets,
    Utf8.encode_cons, alone]
  rfl

theorem readMark_encode (mark : first = '!') :
    readMark start more = encodeResult (Token.readMark rest) := by
  subst mark
  obtain ⟨alone, rfl⟩ := start_of_ascii bytes (by decide)
  rw [readMark, takeIdentifier_encode, Token.readMark, encodeResult, Token.octets,
    Utf8.encode_cons, alone]
  rfl

theorem nextOf_plain
    (plain : Token.Plain first rest) :
    nextOf start more =
      if Token.startsNumber (first :: rest) then readNumber (start :: more)
      else if Token.startsDashedWord (first :: rest) then readWord (start :: more)
      else if Token.isOperator first then (.operator [start], more)
      else readWord (start :: more) := by
  rw [nextOf, ascii_start bytes isAscii_isBlank, plain.blank, ascii_start bytes isAscii_isQuote,
    plain.quote, startsComment_encode bytes, plain.comment,
    ascii_start bytes (isAscii_eq (by decide)), beq_false_of_ne plain.openParen,
    ascii_start bytes (isAscii_eq (by decide)), beq_false_of_ne plain.closeParen,
    ascii_start bytes (isAscii_eq (by decide)), beq_false_of_ne plain.comma,
    ascii_start bytes (isAscii_eq (by decide)), beq_false_of_ne plain.mark,
    ← bytes, startsNumber_encode, startsDashedWord_encode, ascii_start bytes isAscii_isOperator]
  rfl

theorem nextOf_encode : nextOf start more = encodeResult (Token.nextOf first rest) := by
  have starts := Token.starts_nextOf first rest
  generalize Token.nextOf first rest = result at starts ⊢
  cases starts with
  | space blank =>
      obtain ⟨taken, left⟩ := takeWhile_encode isAscii_isBlank (first :: rest)
      rw [nextOf, ascii_start bytes isAscii_isBlank, if_pos blank, ← bytes, taken, left]
      rfl
  | string quote =>
      have notBlank : isBlank first = false := by
        simp only [isQuote, Bool.or_eq_true, beq_iff_eq] at quote
        rcases quote with rfl | rfl <;> rfl
      rw [nextOf, ascii_start bytes isAscii_isBlank, notBlank, ascii_start bytes isAscii_isQuote,
        if_pos quote]
      exact readString_encode bytes quote
  | @comment body =>
      obtain ⟨rfl, rfl⟩ := List.cons.inj bytes
      show readComment (0x2F :: 0x2A :: encode body) = _
      rw [readComment, List.drop_succ_cons, List.drop_succ_cons, List.drop_zero,
        takeComment_encode]
      rfl
  | openParen =>
      obtain ⟨rfl, rfl⟩ := List.cons.inj bytes
      rfl
  | closeParen =>
      obtain ⟨rfl, rfl⟩ := List.cons.inj bytes
      rfl
  | comma =>
      obtain ⟨rfl, rfl⟩ := List.cons.inj bytes
      rfl
  | mark =>
      obtain ⟨rfl, rfl⟩ := List.cons.inj bytes
      exact readMark_encode bytes rfl
  | number number =>
      rw [nextOf_plain bytes (.of_startsNumber number), if_pos number, ← bytes]
      exact readNumber_encode (first :: rest)
  | dashedWord dashed =>
      have plain : Token.Plain first rest := by
        rw [Token.first_of_startsDashedWord dashed]
        exact .of_isSign rfl rest
      rw [nextOf_plain bytes plain, Token.startsNumber_of_startsDashedWord dashed, if_pos dashed,
        ← bytes]
      exact readWord_encode (first :: rest)
  | operator operator noComment noNumber noDash =>
      obtain ⟨alone, rfl⟩ := start_of_ascii bytes (isAscii_isOperator first operator)
      rw [nextOf_plain bytes (.of_isOperator operator noComment), noNumber, noDash,
        if_pos operator, encodeResult, Token.octets, Utf8.encode_cons, alone]
      rfl
  | word goesOn noOperator noNumber noDash =>
      rw [nextOf_plain bytes (.of_endsWord goesOn rest), noNumber, noDash, noOperator, ← bytes]
      exact readWord_encode (first :: rest)

end

end CssRescale.Octets
