import CssRescale.Proofs.Token.Alignment
import CssRescale.Proofs.Token.Located
import CssRescale.Proofs.Token.Replace

/-!
Contract: the tokens of a text part it, in characters and in bytes.

A step of the scanner of bytes, on the bytes of a text, is a step of the scan of the text:
the flags are the state, since the flag for the name of a URL is up only right before a
parenthesis. So the scanner of bytes stops, with the bytes of the tokens of the text, and
all bounds of its tokens are between characters.

Owns:
- the steps and runs of the scanner of bytes on texts;
- the tokens of a text as its parts.
-/

set_option autoImplicit false

namespace CssRescale

open Text (byteLength)
open Utf8 (encode)

namespace Octets

/-! ## URLs -/

theorem takeUrlBody?_encode (text : Text) :
    takeUrlBody? (encode text) = (Token.takeUrlBody? text).map encodeBoth := by
  rw [takeUrlBody?, (takeWhile_encode isAscii_isBlank text).2, Token.takeUrlBody?]
  cases text.dropWhile isBlank with
  | nil => rfl
  | cons first rest =>
      obtain ⟨start, more, bytes, -⟩ := exists_encode_eq_cons first rest
      rw [bytes]
      simp only [ascii_start bytes isAscii_isQuote,
        ascii_start bytes (isAscii_eq (show ')'.toNat < 0x80 by decide))]
      split
      · rfl
      · rw [takeEscaped_encode (isAscii_eq (by decide)), realign_encodeBoth]
        rfl

theorem isAscii_toLower_eq {letter : Char} (code : letter.toNat < 0x80) :
    IsAscii fun c => c.toLower == letter := by
  intro c same
  have lower := eq_of_beq same
  unfold Char.toLower at lower
  split at lower
  case isTrue upper => exact Nat.lt_of_le_of_lt (UInt32.le_iff_toNat_le.mp upper.2) (by decide)
  case isFalse => exact lower ▸ code

/-- Letters are compared without their case, each with its byte. -/
theorem areEach_encode
    {letters : List Char}
    (codes : (letters.all fun letter => letter.toNat < 0x80) = true)
    (text : Text) :
    areEach (letters.map fun letter c => c.toLower == letter) (encode text) =
      (text.map Char.toLower == letters) := by
  induction letters generalizing text with
  | nil =>
      cases text with
      | nil => rfl
      | cons first rest =>
          obtain ⟨start, more, bytes, -⟩ := exists_encode_eq_cons first rest
          rw [bytes]
          rfl
  | cons letter letters inductionHypothesis =>
      cases text with
      | nil => rfl
      | cons first rest =>
          obtain ⟨code, others⟩ := Bool.and_eq_true_iff.mp codes
          have isAscii := isAscii_toLower_eq (of_decide_eq_true code)
          obtain ⟨start, more, bytes, ⟨tested, -⟩, whole⟩ := exists_encode_eq_cons first rest
          rw [bytes, List.map_cons, List.map_cons, areEach, tested _ isAscii, List.cons_beq_cons]
          cases same : first.toLower == letter with
          | false => rfl
          | true =>
              obtain ⟨-, rfl⟩ := whole (isAscii first same)
              rw [inductionHypothesis others]

theorem areEach_urlLetters (text : Text) :
    areEach urlLetters (encode text) = Text.equalIgnoringCase text Token.urlName :=
  areEach_encode (by decide) text

theorem startsWithParen_encode (text : Text) :
    startsWith (· == '(') (encode text) = Token.startsWithParen text := by
  rw [startsWith_encode (isAscii_eq (by decide)), Token.startsWithParen_eq]

/-! ## Steps -/

/-- The flags of a state. -/
def flagsOf : Token.UrlState → Flags
  | .outside => ⟨false, false⟩
  | .named => ⟨true, false⟩
  | .opened => ⟨false, true⟩

/-- The name of a URL is remembered only right before a parenthesis. -/
def IsReached (state : Token.UrlState) (text : Text) : Prop :=
  state = .named → Token.startsWithParen text = true

section

variable
  {state : Token.UrlState}
  {source left : Text}
  {token : Token}

theorem isReached_after : IsReached (state.after token left) left := by
  intro isNamed
  cases token with
  | word raw =>
      rw [Token.UrlState.after] at isNamed
      split at isNamed
      case isTrue both => exact (Bool.and_eq_true_iff.mp both).2
      case isFalse => cases isNamed
  | openParen =>
      rw [Token.UrlState.after] at isNamed
      split at isNamed
      case isTrue => cases isNamed
      case isFalse => cases isNamed
  | _ => cases isNamed

/-- The body of a URL is no name, since no parenthesis that opens is behind it. -/
theorem after_of_expected
    {body : Text}
    (expected : Token.expectedBody? state source = some (body, left)) :
    state.after (.word body) left = .outside := by
  have noParen : Token.startsWithParen left = false := by
    rcases Token.left_of_takeUrlBody? (Token.takeUrlBody?_of_expectedBody? expected) with
      rfl | ⟨rest, rfl⟩
    · rfl
    · rfl
  rw [Token.UrlState.after, noParen, Bool.and_false]
  rfl

theorem flags_after
    {first : Char}
    {rest : Text}
    (reached : IsReached state (first :: rest))
    (starts : Token.Starts first rest (token, left)) :
    (flagsOf state).after token.octets (encode left) = flagsOf (state.after token left) := by
  -- Right behind the name of a URL there is nothing but its parenthesis.
  have noName : token ≠ .openParen → state ≠ .named := by
    rintro other rfl
    have paren := reached rfl
    rw [Token.startsWithParen_eq] at paren
    obtain rfl := eq_of_beq paren
    exact other (congrArg Prod.fst starts.nextOf_eq).symm
  cases token with
  | openParen => cases state <;> rfl
  | word raw =>
      rw [Token.octets, Flags.after, areEach_urlLetters, startsWithParen_encode,
        Token.UrlState.after]
      cases Text.equalIgnoringCase raw Token.urlName && Token.startsWithParen left <;> rfl
  | _ =>
      have unnamed := noName (by rintro ⟨⟩)
      cases state with
      | named => exact absurd rfl unnamed
      | outside => rfl
      | opened => rfl

theorem next?_encode
    (reached : IsReached state source)
    (reading : Token.next? state source = some (token, left)) :
    next? (flagsOf state) (encode source) =
      some (token.octets, flagsOf (state.after token left), encode left) := by
  rcases Token.next?_cases reading with
    ⟨body, rfl, expected⟩ | ⟨first, rest, rfl, unexpected, starts⟩
  · have after := after_of_expected expected
    have taken := takeUrlBody?_encode source
    rw [Token.takeUrlBody?_of_expectedBody? expected] at taken
    have opened : state = .opened := by
      unfold Token.expectedBody? at expected
      split at expected
      · assumption
      · exact absurd expected nofun
    subst opened
    cases source with
    | nil => exact absurd reading nofun
    | cons first rest =>
        obtain ⟨start, more, bytes, -⟩ := exists_encode_eq_cons first rest
        rw [bytes] at taken ⊢
        rw [next?, flagsOf, if_pos rfl, taken, after]
        rfl
  · obtain ⟨start, more, bytes, -⟩ := exists_encode_eq_cons first rest
    have noBody : (if (flagsOf state).body then takeUrlBody? (start :: more) else none) = none := by
      cases state with
      | opened =>
          have none : Token.takeUrlBody? (first :: rest) = none := unexpected
          rw [← bytes, takeUrlBody?_encode, none]
          rfl
      | outside => rfl
      | named => rfl
    rw [bytes, next?, noBody]
    simp only [nextOf_encode bytes, starts.nextOf_eq, encodeResult, flags_after reached starts]

end

/-! ## Runs -/

end Octets

/-- The token of bytes of a located token. -/
def LocatedToken.octets (located : LocatedToken) : Octets.Located :=
  ⟨located.offset, located.token.octets⟩

/-- On the bytes of a text the scanner of bytes takes the bytes of the tokens, and stops. -/
theorem Octets.runs_scanFrom
    {state : Token.UrlState}
    {source : Text}
    (reached : IsReached state source)
    (offset : Nat) :
    Runs (flagsOf state) offset (encode source)
      ((LocatedToken.ofTokens offset (Token.scanFrom state source)).map LocatedToken.octets) := by
  fun_induction Token.scanFrom state source generalizing offset with
  | case1 state source ended =>
      cases source with
      | nil => exact .stop rfl
      | cons first rest =>
          obtain ⟨token, left, reading⟩ := Token.exists_next? state (List.cons_ne_nil first rest)
          cases ended.symm.trans reading
  | case2 state source token left reading inductionHypothesis =>
      have taken : (encode source).length - (encode left).length = byteLength token.text := by
        rw [← Token.next?_append reading, Utf8.length_encode, Utf8.length_encode,
          Text.byteLength_append, Nat.add_sub_cancel]
      refine .step (next?_encode reached reading) ?_
      rw [taken]
      exact inductionHypothesis isReached_after _

/-! ## The parts of a text -/

/-- The bounds of a token are between characters of a text, and so is the start of the unit
of a number: they cut the token, the literal and the unit out of the text. -/
structure LocatedToken.IsPartOf (source : Text) (located : LocatedToken) : Prop where
  whole :
    source.slice? located.offset (located.offset + byteLength located.token.text) =
      some located.token.text
  literal {literal unit : Text} (isNumber : located.token = .number literal unit) :
    source.slice? located.offset (located.offset + byteLength literal) = some literal
  unit {literal unit : Text} (isNumber : located.token = .number literal unit) :
    source.slice? (located.offset + byteLength literal)
      (located.offset + byteLength (literal ++ unit)) = some unit

namespace Token

theorem byteLength_concat (before : List LocatedToken) :
    byteLength (concat (before.map LocatedToken.token)) =
      before.foldr (fun located rest => byteLength located.token.text + rest) 0 := by
  induction before with
  | nil => rfl
  | cons located rest inductionHypothesis =>
      rw [List.map_cons, concat_cons, Text.byteLength_append, inductionHypothesis, List.foldr_cons]

section

variable
  {source : Text}
  {before after : List LocatedToken}
  {located : LocatedToken}
  (split : scanLocated source = before ++ located :: after)

include split

theorem text_ne_nil_of_scanLocated : located.token.text ≠ [] := by
  have parts := (LocatedToken.split_of_ofTokens split).1
  have member : located.token ∈ scan source :=
    parts ▸ List.mem_append_right _ List.mem_cons_self
  exact forall_mem_scanFrom next?_text_ne_nil .outside source _ member

theorem offset_of_scanLocated :
    located.offset =
      before.foldr (fun earlier rest => byteLength earlier.token.text + rest) 0 := by
  rw [(LocatedToken.split_of_ofTokens split).2, Nat.zero_add, byteLength_concat]

theorem isPartOf_of_scanLocated : located.IsPartOf source where
  whole := LocatedToken.slice?_of_scanLocated split
  literal {literal unit} isNumber := by
    have whole := LocatedToken.slice?_of_scanLocated split
    rw [isNumber] at whole
    exact Text.slice?_slice? whole (Text.slice?_append [] literal unit)
  unit {literal unit} isNumber := by
    have whole := LocatedToken.slice?_of_scanLocated split
    rw [isNumber] at whole
    exact Text.slice?_slice? whole (Text.slice?_end literal unit)

end

/-- The tokens of a text part it. On the bytes of the text the scanner of bytes takes the
bytes of these tokens, at their offsets, and stops. No token is empty, and their texts one
after another are the text. So an offset is the length in bytes of the texts before it, and
all bounds of the tokens are between characters, whatever a backslash stands before. -/
theorem partition_scanLocated (source : Text) :
    (∀ tokens, Octets.Runs ⟨false, false⟩ 0 (encode source) tokens ↔
        tokens = (scanLocated source).map LocatedToken.octets) ∧
      concat ((scanLocated source).map LocatedToken.token) = source ∧
      ∀ before located after, scanLocated source = before ++ located :: after →
        located.token.text ≠ [] ∧
          located.offset =
            before.foldr (fun earlier rest => byteLength earlier.token.text + rest) 0 ∧
          located.IsPartOf source := by
  have runs : Octets.Runs ⟨false, false⟩ 0 (encode source)
      ((scanLocated source).map LocatedToken.octets) :=
    @Octets.runs_scanFrom .outside source nofun 0
  refine ⟨fun tokens => ⟨fun runsToo => runsToo.unique runs, fun same => same ▸ runs⟩, ?_,
    fun before located after split => ⟨text_ne_nil_of_scanLocated split,
      offset_of_scanLocated split, isPartOf_of_scanLocated split⟩⟩
  rw [scanLocated, LocatedToken.map_token_ofTokens, concat_scan]

/-- A backslash before a character of two bytes, in the unit of a number, and one at the
end. -/
theorem partition_scanLocated_escapes :
    scanLocated ")1\\éx \\".toList =
        [⟨0, .closeParen⟩] ++ ⟨1, .number ['1'] "\\éx".toList⟩ ::
          [⟨6, .space [' ']⟩, ⟨7, .word ['\\']⟩] ∧
      Text.slice? ")1\\éx \\".toList 1 6 = some "1\\éx".toList ∧
      Text.slice? ")1\\éx \\".toList 2 6 = some "\\éx".toList ∧
      Octets.Runs ⟨false, false⟩ 0 (encode ")1\\éx \\".toList)
        [⟨0, .closeParen⟩, ⟨1, .number [0x31, 0x5C, 0xC3, 0xA9, 0x78] 1⟩, ⟨6, .space [0x20]⟩,
          ⟨7, .word [0x5C]⟩] := by
  obtain ⟨runs, -, parts⟩ := partition_scanLocated ")1\\éx \\".toList
  have tokens : scanLocated ")1\\éx \\".toList =
      [⟨0, .closeParen⟩] ++ ⟨1, .number ['1'] "\\éx".toList⟩ ::
        [⟨6, .space [' ']⟩, ⟨7, .word ['\\']⟩] := by decide +kernel
  have isPart := (parts _ _ _ tokens).2.2
  refine ⟨tokens, isPart.whole, isPart.unit rfl, (runs _).mpr ?octets⟩
  case octets =>
    rw [tokens]
    decide +kernel

end Token

end CssRescale
