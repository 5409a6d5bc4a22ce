import Mathlib.Data.List.Forall2
import CssRescale.Encoding.Sheet
import CssRescale.Proofs.Encoding.Utf8

/-!
Contract: decoding a style sheet's bytes.

Bytes are told to be UTF-8 by being well formed, whatever mark or rule they start with. The
first character of a text tells which mark its bytes start with: a mark of UTF-8 is the
character itself, and no text has the bytes of the others. So the bytes of a text decode
to the text, of which only the mark is lost.

Other bytes are read by the rule that they start with, and by a code page if they start
with no rule or one that says nothing. A code page has one character for each byte.

Owns:
- the mark at the start of a text, and of its bytes;
- bytes that say nothing about their encoding;
- the characters of a code page, one for each byte;
- what decoding makes of the bytes of a text, and of bytes that say nothing.
-/

set_option autoImplicit false

namespace CssRescale

/-- The character that marks the encoding of a text that starts with it. -/
def byteOrderMark : Char := Char.ofNat 0xFEFF

/-- The text without the mark that it may start with; any other one is left. -/
def Text.withoutMark : Text → Text
  | [] => []
  | first :: rest => if first = byteOrderMark then rest else first :: rest

namespace Encoding

/-! ## The bytes of a text -/

theorem encodeChar_byteOrderMark : Utf8.encodeChar byteOrderMark = [0xEF, 0xBB, 0xBF] := by
  decide

/-- Bytes that start with a mark are those of no text or of one that starts with its
character. -/
theorem mark_cases
    {bytes rest : Bytes}
    {marked : Encoding}
    (mark : ofMark? bytes = some (marked, rest)) :
    (bytes = Utf8.encodeChar byteOrderMark ++ rest ∧ marked = utf8) ∨
      ∀ text, bytes ≠ Utf8.encode text := by
  have noText : ∀ {start : UInt8} {left : Bytes}, Utf8.first start = ([none], .start) →
      ∀ text, start :: left ≠ Utf8.encode text := by
    intro start left refused text same
    have wellFormed := ((Utf8.decode_eq_iff _ text).mpr same).1
    rw [Utf8.decode, Utf8.decodeFrom_cons, Utf8.step, refused, List.singleton_append,
      Utf8.isMalformed_cons_none] at wellFormed
    cases wellFormed
  unfold ofMark? at mark
  split at mark
  case h_1 =>
    simp only [Option.some.injEq, Prod.mk.injEq] at mark
    obtain ⟨rfl, rfl⟩ := mark
    exact .inl ⟨congrArg (· ++ _) encodeChar_byteOrderMark.symm, rfl⟩
  case h_2 => exact .inr (noText rfl)
  case h_3 => exact .inr (noText rfl)
  case h_4 => cases mark

/-- The bytes of a text are decoded to its characters; a mark at the start is not among
them. -/
theorem decode_utf8_encode (text : Text) :
    utf8.decode (Utf8.encode text) = text.withoutMark.map some := by
  cases text with
  | nil => rfl
  | cons first rest =>
      by_cases isMark : first = byteOrderMark
      · rw [isMark, Text.withoutMark, if_pos rfl, Utf8.encode_cons, encodeChar_byteOrderMark]
        exact Utf8.decode_encode rest
      · have unmarked : ofMark? (Utf8.encode (first :: rest)) = none := by
          rw [Option.eq_none_iff_forall_not_mem]
          rintro ⟨marked, left⟩ mark
          rcases mark_cases mark with ⟨start, -⟩ | noText
          · have decoded := Utf8.decode_encode (first :: rest)
            rw [start, Utf8.decode, Utf8.decodeFrom_encodeChar, List.map_cons,
              List.cons.injEq, Option.some.injEq] at decoded
            exact isMark decoded.1.symm
          · exact noText _ rfl
        rw [Text.withoutMark, if_neg isMark, decode, unmarked]
        exact Utf8.decode_encode (first :: rest)

theorem decodeSheet_encode (text : Text) : decodeSheet (Utf8.encode text) = text.withoutMark := by
  rw [decodeSheet, decode_utf8_encode, Utf8.isMalformed_map_some, if_neg Bool.false_ne_true,
    Utf8.text_map_some]

/-! ## Bytes that say nothing about their encoding -/

/-- The byte order marks of UTF-8 and of UTF-16 in either order. -/
def marks : List Bytes := [[0xEF, 0xBB, 0xBF], [0xFF, 0xFE], [0xFE, 0xFF]]

/-- A label as it is written in bytes. -/
def labelText (label : Bytes) : Text := label.map fun byte => Char.ofNat byte.toNat

/-- A rule that names an encoding, up to its semicolon. -/
def charsetRule (label : Bytes) : Bytes :=
  Utf8.encode "@charset \"".toList ++ label ++ Utf8.encode "\";".toList

/-- The bytes are those of no text, start with no mark, and with no rule whose label is one
of an encoding. -/
structure IsUndeclared (bytes : Bytes) : Prop where
  notText : ∀ text, bytes ≠ Utf8.encode text
  unmarked : ∀ mark ∈ marks, ¬mark <+: bytes
  unlabelled : ∀ label, 0x22 ∉ label → charsetRule label <+: bytes →
    ofLabel? (labelText label) = none

/-- The character that stands for a byte: a byte of ASCII is kept, and no other byte becomes
a character of ASCII. -/
def StandsFor (byte : UInt8) (c : Char) : Prop :=
  if byte < 0x80 then c.toNat = byte.toNat else 0x80 ≤ c.toNat

/-- There is a label exactly if the bytes start with a rule, and it is that of the rule. -/
theorem ruleLabel?_eq_some_iff
    (bytes : Bytes)
    (label : Text) :
    ruleLabel? bytes = some label ↔
      ∃ raw, 0x22 ∉ raw ∧ charsetRule raw <+: bytes ∧ label = labelText raw := by
  constructor
  · intro found
    unfold ruleLabel? at found
    split at found
    case isFalse => cases found
    case isTrue starts =>
      obtain ⟨rest, rfl⟩ := List.isPrefixOf_iff_prefix.mp starts
      rw [List.drop_left] at found
      dsimp only at found
      split at found
      case h_2 => cases found
      case h_1 after ended =>
        refine ⟨rest.takeWhile (· != 0x22), fun quote => ?_, ⟨after, ?_⟩,
          (Option.some.inj found).symm⟩
        · exact absurd (List.all_eq_true.mp List.all_takeWhile _ quote) (by decide)
        · have parts := @List.takeWhile_append_dropWhile _ (· != 0x22) rest
          rw [ended] at parts
          show ruleStart ++ _ ++ [0x22, 0x3B] ++ after = ruleStart ++ rest
          rw [List.append_assoc, List.append_assoc, List.append_cancel_left_eq]
          exact parts
  · rintro ⟨raw, noQuote, ⟨after, rfl⟩, rfl⟩
    have inside : ∀ byte ∈ raw, (byte != 0x22) = true := fun byte member =>
      bne_iff_ne.mpr fun same => noQuote (same ▸ member)
    have parts : charsetRule raw ++ after = ruleStart ++ (raw ++ 0x22 :: 0x3B :: after) := by
      show ruleStart ++ raw ++ [0x22, 0x3B] ++ after = _
      simp only [List.append_assoc, List.cons_append, List.nil_append]
    rw [parts, ruleLabel?, if_pos (List.isPrefixOf_iff_prefix.mpr (List.prefix_append _ _)),
      List.drop_left]
    dsimp only
    rw [List.takeWhile_append_of_pos inside, List.dropWhile_append_of_pos inside,
      List.takeWhile_cons_of_neg (by decide), List.dropWhile_cons_of_neg (by decide),
      List.append_nil]
    rfl

theorem IsUndeclared.ofMark?_eq_none
    {bytes : Bytes}
    (undeclared : IsUndeclared bytes) :
    ofMark? bytes = none := by
  unfold ofMark?
  split
  case h_1 rest => exact absurd ⟨rest, rfl⟩ (undeclared.unmarked [0xEF, 0xBB, 0xBF] (by decide))
  case h_2 rest => exact absurd ⟨rest, rfl⟩ (undeclared.unmarked [0xFF, 0xFE] (by decide))
  case h_3 rest => exact absurd ⟨rest, rfl⟩ (undeclared.unmarked [0xFE, 0xFF] (by decide))
  case h_4 => rfl

/-- Bytes that say nothing are read by the code page that is taken then. -/
theorem IsUndeclared.declared_eq
    {bytes : Bytes}
    (undeclared : IsUndeclared bytes) :
    declared bytes = codePage .windows1252 := by
  have unlabelled : (ruleLabel? bytes).bind ofLabel? = none := by
    cases found : ruleLabel? bytes with
    | none => rfl
    | some label =>
        obtain ⟨raw, noQuote, starts, rfl⟩ := (ruleLabel?_eq_some_iff bytes label).mp found
        exact undeclared.unlabelled raw noQuote starts
  rw [declared, unlabelled]
  rfl

/-! ## Code pages -/

/-- The codes of a page are those of characters beyond ASCII. -/
theorem codes_beyond (page : CodePage) :
    ∀ code ∈ page.codes.toList,
      0x80 ≤ code ∧ (code < 0xD800 ∨ 0xDFFF < code ∧ code < 0x110000) := by
  cases page <;> decide +kernel

theorem size_codes (page : CodePage) : page.codes.size = 128 := by
  cases page <;> rfl

theorem standsFor_char (page : CodePage) (byte : UInt8) : StandsFor byte (page.char byte) := by
  have isByte : byte.toNat < 256 := byte.toNat_lt
  unfold StandsFor CodePage.char
  split
  case isTrue ascii => exact Utf8.toNat_charOfNat (.inl (by omega))
  case isFalse beyond =>
    rw [UInt8.lt_iff_toNat_lt] at beyond
    have inside : byte.toNat - 0x80 < page.codes.size := by
      rw [size_codes]
      show byte.toNat - 0x80 < 128
      omega
    obtain ⟨least, valid⟩ := codes_beyond page _ (Array.getElem_mem_toList inside)
    rw [Array.getD_eq_getD_getElem?, Array.getElem?_eq_getElem inside, Option.getD_some,
      Utf8.toNat_charOfNat valid]
    exact least

/-- Bytes that are those of no text and start with no mark have one character for each byte
if a code page is declared. -/
theorem decodeSheet_of_declared
    {bytes : Bytes}
    {page : CodePage}
    (notText : ∀ text, bytes ≠ Utf8.encode text)
    (unmarked : ofMark? bytes = none)
    (isDeclared : declared bytes = codePage page) :
    decodeSheet bytes = bytes.map page.char := by
  have malformed : (Utf8.decode bytes).isMalformed = true := by
    rw [← Bool.not_eq_false]
    intro wellFormed
    exact notText _ (Utf8.encode_text_decode wellFormed).symm
  have decoded : ∀ encoding : Encoding, encoding.decode bytes = encoding.decodeUnmarked bytes := by
    intro encoding
    rw [decode, unmarked]
  rw [decodeSheet, decoded, decoded, isDeclared]
  show (if (Utf8.decode bytes).isMalformed = true then _ else _) = _
  rw [if_pos malformed, decodeUnmarked, CodePage.decode, Decoded.text, List.map_map]
  rfl

/-- What the text of a style sheet's bytes is. -/
structure IsReading (bytes : Bytes) (text : Text) : Prop where
  /-- The bytes of a text are read as the text without the mark that it may start with,
  whatever rule it starts with. -/
  ofText : ∀ original, bytes = Utf8.encode original → text = original.withoutMark
  /-- Bytes that say nothing are read as one character for each byte. -/
  ofUndeclared : IsUndeclared bytes → List.Forall₂ StandsFor bytes text

/-- All bytes have a text: those of a text have that text, but for a mark at its start, and
those that say nothing about their encoding have one character for each byte. -/
theorem isReading_decodeSheet (bytes : Bytes) : IsReading bytes (decodeSheet bytes) where
  ofText := by
    rintro original rfl
    exact decodeSheet_encode original
  ofUndeclared undeclared := by
    rw [decodeSheet_of_declared undeclared.notText undeclared.ofMark?_eq_none
      undeclared.declared_eq, List.forall₂_map_right_iff]
    exact List.forall₂_same.mpr fun byte _ => standsFor_char .windows1252 byte

/-- A rule with a label of no encoding before a byte that is no UTF-8, and a text with two
marks before a rule with the label of another encoding than its own. -/
theorem isReading_decodeSheet_rules :
    let undeclared := Utf8.encode "@charset \"x\"; ".toList ++ [0xE9]
    let text := byteOrderMark :: byteOrderMark :: "@charset \"koi8-r\"; š".toList
    IsUndeclared undeclared ∧ IsReading undeclared (decodeSheet undeclared) ∧
      decodeSheet undeclared = "@charset \"x\"; é".toList ∧
      IsReading (Utf8.encode text) (decodeSheet (Utf8.encode text)) ∧
      decodeSheet (Utf8.encode text) = byteOrderMark :: "@charset \"koi8-r\"; š".toList := by
  intro undeclared text
  have isUndeclared : IsUndeclared undeclared := by
    refine ⟨?notText, by decide, ?unlabelled⟩
    case notText =>
      intro text same
      have wellFormed := ((Utf8.decode_eq_iff _ text).mpr same).1
      exact absurd wellFormed (by decide +kernel)
    case unlabelled =>
      intro label noQuote starts
      have found := (ruleLabel?_eq_some_iff _ _).mpr ⟨label, noQuote, starts, rfl⟩
      have only : ruleLabel? undeclared = some ['x'] := by decide +kernel
      rw [Option.some.inj (found.symm.trans only)]
      decide +kernel
  have read : decodeSheet undeclared = undeclared.map CodePage.windows1252.char :=
    decodeSheet_of_declared isUndeclared.notText isUndeclared.ofMark?_eq_none
      isUndeclared.declared_eq
  refine ⟨isUndeclared, isReading_decodeSheet _, ?_, isReading_decodeSheet _, by decide +kernel⟩
  rw [read]
  decide +kernel

end Encoding

end CssRescale
