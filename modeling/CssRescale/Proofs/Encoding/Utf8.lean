import CssRescale.Encoding.Utf8
import CssRescale.Proofs.Text.Bytes

/-!
Contract: UTF-8 as an encoding of texts.

Owns:
- the bytes of one character: how many, and which of them start a character;
- decoding what was encoded, and encoding what was decoded: the bytes that decode without
  a fault are those of a text, and of one text only.

Does not own: what decoding makes of bytes that are of no text.
-/

set_option autoImplicit false

namespace CssRescale.Utf8

/-! ## The bytes of a character -/

/-- A byte that goes on a character and starts none. -/
def isContinuation (byte : UInt8) : Bool := 0x80 ≤ byte && byte ≤ 0xBF

theorem toNat_ofNat
    {value : Nat}
    (isByte : value < 256) :
    (UInt8.ofNat value).toNat = value := by
  rw [UInt8.toNat_ofNat', Nat.mod_eq_of_lt isByte]

/-- The six low bits of a code make a byte that goes on a character. -/
theorem isContinuation_ofNat (code : Nat) :
    isContinuation (UInt8.ofNat (0x80 + code % 64)) = true := by
  have low := Nat.mod_lt code (by decide : 0 < 64)
  have number := toNat_ofNat (show 0x80 + code % 64 < 256 by omega)
  simp only [isContinuation, Bool.and_eq_true, decide_eq_true_eq, UInt8.le_iff_toNat_le, number]
  exact ⟨Nat.le_add_right _ _, show 0x80 + code % 64 ≤ 191 by omega⟩

theorem encode_append (left right : Text) : encode (left ++ right) = encode left ++ encode right :=
  List.flatMap_append

theorem encode_cons (first : Char) (rest : Text) :
    encode (first :: rest) = encodeChar first ++ encode rest := rfl

/-- The greatest code of a character. -/
theorem toNat_lt (c : Char) : c.toNat < 0x110000 := by
  rcases c.valid with low | ⟨_, high⟩
  · exact Nat.lt_trans low (by decide)
  · exact high

section

variable {c : Char}

theorem encodeChar_one (one : c.toNat < 0x80) : encodeChar c = [UInt8.ofNat c.toNat] := by
  rw [encodeChar, if_pos one]

theorem encodeChar_two
    (notOne : ¬c.toNat < 0x80)
    (two : c.toNat < 0x800) :
    encodeChar c =
      [UInt8.ofNat (0xC0 + c.toNat / 64), UInt8.ofNat (0x80 + c.toNat % 64)] := by
  rw [encodeChar, if_neg notOne, if_pos two]

theorem encodeChar_three
    (notTwo : ¬c.toNat < 0x800)
    (three : c.toNat < 0x10000) :
    encodeChar c =
      [UInt8.ofNat (0xE0 + c.toNat / 4096), UInt8.ofNat (0x80 + c.toNat / 64 % 64),
        UInt8.ofNat (0x80 + c.toNat % 64)] := by
  rw [encodeChar, if_neg (by omega), if_neg notTwo, if_pos three]

theorem encodeChar_four (notThree : ¬c.toNat < 0x10000) :
    encodeChar c =
      [UInt8.ofNat (0xF0 + c.toNat / 262144), UInt8.ofNat (0x80 + c.toNat / 4096 % 64),
        UInt8.ofNat (0x80 + c.toNat / 64 % 64), UInt8.ofNat (0x80 + c.toNat % 64)] := by
  rw [encodeChar, if_neg (by omega), if_neg (by omega), if_neg notThree]

end

/-- A character of ASCII is one byte, its code; any other is a byte that starts it and
bytes that go on. -/
theorem encodeChar_cases (c : Char) :
    (c.toNat < 0x80 ∧ encodeChar c = [UInt8.ofNat c.toNat]) ∨
      0x80 ≤ c.toNat ∧ ∃ start more, encodeChar c = start :: more ∧ 0xC2 ≤ start ∧ more ≠ [] ∧
        ∀ byte ∈ more, isContinuation byte = true := by
  have bound := toNat_lt c
  have starts : ∀ {value : Nat}, 0xC2 ≤ value → value < 256 → 0xC2 ≤ UInt8.ofNat value := by
    intro value least isByte
    rw [UInt8.le_iff_toNat_le, toNat_ofNat isByte]
    exact least
  have goesOn := isContinuation_ofNat
  have none : ∀ byte ∈ ([] : Bytes), isContinuation byte = true := nofun
  by_cases one : c.toNat < 0x80
  · exact .inl ⟨one, encodeChar_one one⟩
  · refine .inr ⟨Nat.le_of_not_lt one, ?_⟩
    by_cases two : c.toNat < 0x800
    · exact ⟨_, _, encodeChar_two one two,
        starts (by omega) (by omega), List.cons_ne_nil _ _,
        List.forall_mem_cons.mpr ⟨goesOn _, none⟩⟩
    · by_cases three : c.toNat < 0x10000
      · exact ⟨_, _, encodeChar_three two three,
          starts (by omega) (by omega), List.cons_ne_nil _ _,
          List.forall_mem_cons.mpr ⟨goesOn _, List.forall_mem_cons.mpr ⟨goesOn _, none⟩⟩⟩
      · exact ⟨_, _, encodeChar_four three,
          starts (by omega) (by omega), List.cons_ne_nil _ _,
          List.forall_mem_cons.mpr ⟨goesOn _, List.forall_mem_cons.mpr ⟨goesOn _,
            List.forall_mem_cons.mpr ⟨goesOn _, none⟩⟩⟩⟩

theorem utf8Size_eq (c : Char) :
    c.utf8Size =
      if c.toNat < 0x80 then 1
      else if c.toNat < 0x800 then 2
      else if c.toNat < 0x10000 then 3
      else 4 := by
  show (if c.toNat ≤ 0x7F then 1
    else if c.toNat ≤ 0x7FF then 2
    else if c.toNat ≤ 0xFFFF then 3
    else 4) = _
  simp only [← Nat.lt_succ_iff]

theorem length_encodeChar (c : Char) : (encodeChar c).length = c.utf8Size := by
  rw [utf8Size_eq]
  simp only [encodeChar]
  split
  case isTrue => rfl
  case isFalse =>
    split
    case isTrue => rfl
    case isFalse => split <;> rfl

/-- A text has as many bytes as it is long. -/
theorem length_encode (text : Text) : (encode text).length = Text.byteLength text := by
  induction text with
  | nil => rfl
  | cons first rest inductionHypothesis =>
      rw [encode_cons, List.length_append, length_encodeChar, inductionHypothesis,
        Text.byteLength_cons]

/-- The bytes of a text by its first character: one byte that is the character, or a byte
that starts it and bytes that go on. -/
inductive HeadCases : Text → Bytes → Prop where
  | nil : HeadCases [] []
  | ascii {c : Char} {rest : Text}
      (code : c.toNat < 0x80) :
      HeadCases (c :: rest) (UInt8.ofNat c.toNat :: encode rest)
  | beyond {c : Char} {rest : Text} {start : UInt8} {more : Bytes}
      (code : 0x80 ≤ c.toNat)
      (starts : 0xC2 ≤ start)
      (goOn : ∀ byte ∈ more, isContinuation byte = true) :
      HeadCases (c :: rest) (start :: (more ++ encode rest))

theorem headCases (text : Text) : HeadCases text (encode text) := by
  cases text with
  | nil => exact .nil
  | cons c rest =>
      rcases encodeChar_cases c with ⟨code, bytes⟩ | ⟨code, start, more, bytes, starts, -, goOn⟩
      · rw [encode_cons, bytes]
        exact .ascii code
      · rw [encode_cons, bytes]
        exact .beyond code starts goOn

/-! ## Decoding an encoded text -/

/-- The first byte of a character, by its number. -/
theorem first_eq (byte : UInt8) :
    first byte =
      if byte.toNat < 0x80 then ([some (Char.ofNat byte.toNat)], .start)
      else if byte.toNat < 0xC2 then ([none], .start)
      else if byte.toNat < 0xE0 then ([], .tail 0 (byte.toNat - 0xC0))
      else if byte.toNat = 0xE0 then ([], .pending 1 0 0xA0 0xBF)
      else if byte.toNat = 0xED then ([], .pending 1 0xD 0x80 0x9F)
      else if byte.toNat < 0xF0 then ([], .tail 1 (byte.toNat - 0xE0))
      else if byte.toNat = 0xF0 then ([], .pending 2 0 0x90 0xBF)
      else if byte.toNat < 0xF4 then ([], .tail 2 (byte.toNat - 0xF0))
      else if byte.toNat = 0xF4 then ([], .pending 2 4 0x80 0x8F)
      else ([none], .start) := by
  simp only [first, UInt8.lt_iff_toNat_lt, ← UInt8.toNat_inj]
  rfl

theorem decodeFrom_cons
    (state : State)
    (byte : UInt8)
    (rest : Bytes) :
    decodeFrom state (byte :: rest) =
      (step state byte).1 ++ decodeFrom (step state byte).2 rest := by
  cases state <;> rfl

section

variable
  {more code : Nat}
  {least greatest byte : UInt8}
  {rest : Bytes}
  (inRange : least ≤ byte ∧ byte ≤ greatest)

include inRange

/-- The last byte of a character. -/
theorem decodeFrom_last :
    decodeFrom (.pending 0 code least greatest) (byte :: rest) =
      some (Char.ofNat (code * 64 + (byte.toNat - 0x80))) :: decodeFrom .start rest := by
  rw [decodeFrom_cons, step, if_pos inRange]
  rfl

/-- A byte of a character that needs more. -/
theorem decodeFrom_next :
    decodeFrom (.pending (more + 1) code least greatest) (byte :: rest) =
      decodeFrom (.tail more (code * 64 + (byte.toNat - 0x80))) rest := by
  rw [decodeFrom_cons, step, if_pos inRange]
  rfl

end

section

variable
  {more code before : Nat}
  {least greatest : UInt8}
  {rest : Bytes}
  (bits : before = code / 64)

include bits

/-- The six low bits of a code go on the bits before them. -/
theorem low_bits : before * 64 + ((UInt8.ofNat (0x80 + code % 64)).toNat - 0x80) = code := by
  have low := Nat.mod_lt code (by decide : 0 < 64)
  rw [toNat_ofNat (by omega), bits]
  omega

theorem decodeFrom_low
    (inRange : least.toNat ≤ 0x80 + code % 64 ∧ 0x80 + code % 64 ≤ greatest.toNat) :
    decodeFrom (.pending (more + 1) before least greatest)
        (UInt8.ofNat (0x80 + code % 64) :: rest) =
      decodeFrom (.tail more code) rest := by
  have low := Nat.mod_lt code (by decide : 0 < 64)
  have number := toNat_ofNat (show 0x80 + code % 64 < 256 by omega)
  rw [decodeFrom_next, low_bits bits]
  simpa only [UInt8.le_iff_toNat_le, number] using inRange

theorem decodeFrom_tail :
    decodeFrom (.tail (more + 1) before) (UInt8.ofNat (0x80 + code % 64) :: rest) =
      decodeFrom (.tail more code) rest := by
  have low := Nat.mod_lt code (by decide : 0 < 64)
  exact decodeFrom_low bits ⟨Nat.le_add_right _ _, show 0x80 + code % 64 ≤ 191 by omega⟩

theorem decodeFrom_tail_last :
    decodeFrom (.tail 0 before) (UInt8.ofNat (0x80 + code % 64) :: rest) =
      some (Char.ofNat code) :: decodeFrom .start rest := by
  have goesOn := isContinuation_ofNat code
  simp only [isContinuation, Bool.and_eq_true, decide_eq_true_eq] at goesOn
  rw [State.tail, decodeFrom_last goesOn, low_bits bits]

end

/-- The first byte of a character of three bytes. It bounds the next one, so that no
character has a longer form than it needs, and no surrogate has one. -/
theorem first_three
    {byte : UInt8}
    (least : 0xE0 ≤ byte.toNat)
    (less : byte.toNat < 0xF0) :
    first byte = ([], .pending 1 (byte.toNat - 0xE0)
      (if byte.toNat = 0xE0 then 0xA0 else 0x80) (if byte.toNat = 0xED then 0x9F else 0xBF)) := by
  rw [first_eq, if_neg (by omega), if_neg (by omega), if_neg (by omega)]
  by_cases lowest : byte.toNat = 0xE0
  · rw [lowest]
    rfl
  · by_cases surrogate : byte.toNat = 0xED
    · rw [surrogate]
      rfl
    · rw [if_neg lowest, if_neg surrogate, if_pos less, if_neg lowest, if_neg surrogate]
      rfl

/-- The first byte of a character of four bytes. It bounds the next one, so that no
character has a longer form than it needs, and none is greater than the greatest. -/
theorem first_four
    {byte : UInt8}
    (least : 0xF0 ≤ byte.toNat)
    (less : byte.toNat < 0xF5) :
    first byte = ([], .pending 2 (byte.toNat - 0xF0)
      (if byte.toNat = 0xF0 then 0x90 else 0x80) (if byte.toNat = 0xF4 then 0x8F else 0xBF)) := by
  rw [first_eq, if_neg (by omega), if_neg (by omega), if_neg (by omega), if_neg (by omega),
    if_neg (by omega), if_neg (by omega)]
  by_cases lowest : byte.toNat = 0xF0
  · rw [lowest]
    rfl
  · by_cases greatest : byte.toNat = 0xF4
    · rw [greatest]
      rfl
    · rw [if_neg lowest, if_pos (by omega), if_neg lowest, if_neg greatest]
      rfl

theorem decodeFrom_encodeChar (c : Char) (rest : Bytes) :
    decodeFrom .start (encodeChar c ++ rest) = some c :: decodeFrom .start rest := by
  have bound := toNat_lt c
  have surrogates : c.toNat < 0xD800 ∨ 0xDFFF < c.toNat := c.valid.imp id And.left
  have character : Char.ofNat c.toNat = c := Char.ofNat_toNat c
  by_cases one : c.toNat < 0x80
  · rw [encodeChar_one one, List.singleton_append, decodeFrom_cons, step, first_eq,
      toNat_ofNat (by omega), if_pos one, character]
    rfl
  · by_cases two : c.toNat < 0x800
    · rw [encodeChar_two one two, List.cons_append, List.singleton_append,
        decodeFrom_cons, step, first_eq, toNat_ofNat (by omega), if_neg (by omega),
        if_neg (by omega), if_pos (by omega), List.nil_append,
        decodeFrom_tail_last (by omega), character]
    · by_cases three : c.toNat < 0x10000
      · have start := toNat_ofNat (show 0xE0 + c.toNat / 4096 < 256 by omega)
        have middle : c.toNat / 4096 = c.toNat / 64 / 64 := by omega
        rw [encodeChar_three two three, List.cons_append, List.cons_append,
          List.singleton_append, decodeFrom_cons, step, first_three (by omega) (by omega),
          List.nil_append, start, Nat.add_sub_cancel_left, decodeFrom_low middle ?inRange,
          decodeFrom_tail_last rfl, character]
        case inRange => constructor <;> split <;> simp <;> omega
      · have start := toNat_ofNat (show 0xF0 + c.toNat / 262144 < 256 by omega)
        have upper : c.toNat / 262144 = c.toNat / 4096 / 64 := by omega
        have middle : c.toNat / 4096 = c.toNat / 64 / 64 := by omega
        rw [encodeChar_four three, List.cons_append, List.cons_append, List.cons_append,
          List.singleton_append, decodeFrom_cons, step, first_four (by omega) (by omega),
          List.nil_append, start, Nat.add_sub_cancel_left, decodeFrom_low upper ?inRange,
          decodeFrom_tail middle, decodeFrom_tail_last rfl, character]
        case inRange => constructor <;> split <;> simp <;> omega

/-- An encoded text is decoded without a fault, to its characters. -/
theorem decode_encode (text : Text) : decode (encode text) = text.map some := by
  induction text with
  | nil => rfl
  | cons first rest inductionHypothesis =>
      rw [encode_cons, decode, decodeFrom_encodeChar, ← decode, inductionHypothesis, List.map_cons]

/-! ## Encoding a decoded text -/

/-- A place without a character is a fault of all that is decoded. -/
theorem isMalformed_cons_none (decoded : Decoded) :
    Decoded.isMalformed (none :: decoded) = true := rfl

theorem isMalformed_cons_some (c : Char) (decoded : Decoded) :
    Decoded.isMalformed (some c :: decoded) = decoded.isMalformed := rfl

/-- In well-formed bytes a character that needs further bytes has the next one. -/
theorem exists_of_pending
    {more code : Nat}
    {least greatest : UInt8}
    {bytes : Bytes}
    (wellFormed : (decodeFrom (.pending more code least greatest) bytes).isMalformed = false) :
    ∃ byte rest, bytes = byte :: rest ∧ least ≤ byte ∧ byte ≤ greatest := by
  cases bytes with
  | nil => exact absurd wellFormed nofun
  | cons byte rest =>
      by_cases inRange : least ≤ byte ∧ byte ≤ greatest
      · exact ⟨byte, rest, rfl, inRange⟩
      · rw [decodeFrom_cons, step, if_neg inRange, List.cons_append,
          isMalformed_cons_none] at wellFormed
        exact absurd wellFormed nofun

theorem exists_of_tail
    {more code : Nat}
    {bytes : Bytes}
    (wellFormed : (decodeFrom (.tail more code) bytes).isMalformed = false) :
    ∃ byte rest, bytes = byte :: rest ∧ 0x80 ≤ byte.toNat ∧ byte.toNat ≤ 0xBF := by
  obtain ⟨byte, rest, parts, least, greatest⟩ := exists_of_pending wellFormed
  exact ⟨byte, rest, parts, UInt8.le_iff_toNat_le.mp least, UInt8.le_iff_toNat_le.mp greatest⟩

theorem inRange_of_toNat
    {byte : UInt8}
    (goesOn : 0x80 ≤ byte.toNat ∧ byte.toNat ≤ 0xBF) :
    0x80 ≤ byte ∧ byte ≤ 0xBF :=
  ⟨UInt8.le_iff_toNat_le.mpr goesOn.1, UInt8.le_iff_toNat_le.mpr goesOn.2⟩

/-- Every code in the range of characters, but no surrogate, is one of a character. -/
theorem exists_toNat_eq
    {code : Nat}
    (valid : code < 0xD800 ∨ 0xDFFF < code ∧ code < 0x110000) :
    ∃ c : Char, c.toNat = code :=
  ⟨Char.ofNatAux code valid, rfl⟩

theorem toNat_charOfNat
    {code : Nat}
    (valid : code < 0xD800 ∨ 0xDFFF < code ∧ code < 0x110000) :
    (Char.ofNat code).toNat = code := by
  obtain ⟨c, rfl⟩ := exists_toNat_eq valid
  rw [Char.ofNat_toNat]

theorem ofNat_eq
    {value : Nat}
    {byte : UInt8}
    (number : value = byte.toNat) :
    UInt8.ofNat value = byte := by
  rw [number, UInt8.ofNat_toNat]

section

variable
  {start second third last : UInt8}
  (secondGoesOn : 0x80 ≤ second.toNat ∧ second.toNat ≤ 0xBF)
  (thirdGoesOn : 0x80 ≤ third.toNat ∧ third.toNat ≤ 0xBF)
  (lastGoesOn : 0x80 ≤ last.toNat ∧ last.toNat ≤ 0xBF)

include secondGoesOn

theorem exists_encodeChar_two (starts : 0xC2 ≤ start.toNat ∧ start.toNat < 0xE0) :
    ∃ c, encodeChar c = [start, second] := by
  obtain ⟨code, whole⟩ :
      ∃ code, code = (start.toNat - 0xC0) * 64 + (second.toNat - 0x80) := ⟨_, rfl⟩
  obtain ⟨c, rfl⟩ := exists_toNat_eq (.inl (show code < 0xD800 by omega))
  refine ⟨c, ?_⟩
  rw [encodeChar_two (by omega) (by omega), ofNat_eq (show _ = start.toNat by omega),
    ofNat_eq (show _ = second.toNat by omega)]

include thirdGoesOn

theorem exists_encodeChar_three
    (starts : 0xE0 ≤ start.toNat ∧ start.toNat < 0xF0)
    (notLonger : start.toNat = 0xE0 → 0xA0 ≤ second.toNat)
    (noSurrogate : start.toNat = 0xED → second.toNat ≤ 0x9F) :
    ∃ c, encodeChar c = [start, second, third] := by
  obtain ⟨code, whole⟩ :
      ∃ code, code = ((start.toNat - 0xE0) * 64 + (second.toNat - 0x80)) * 64 +
        (third.toNat - 0x80) := ⟨_, rfl⟩
  obtain ⟨c, rfl⟩ :=
    exists_toNat_eq (show code < 0xD800 ∨ 0xDFFF < code ∧ code < 0x110000 by omega)
  refine ⟨c, ?_⟩
  rw [encodeChar_three (by omega) (by omega), ofNat_eq (show _ = start.toNat by omega),
    ofNat_eq (show _ = second.toNat by omega), ofNat_eq (show _ = third.toNat by omega)]

include lastGoesOn

theorem exists_encodeChar_four
    (starts : 0xF0 ≤ start.toNat ∧ start.toNat < 0xF5)
    (notLonger : start.toNat = 0xF0 → 0x90 ≤ second.toNat)
    (notGreater : start.toNat = 0xF4 → second.toNat ≤ 0x8F) :
    ∃ c, encodeChar c = [start, second, third, last] := by
  obtain ⟨code, whole⟩ :
      ∃ code, code = (((start.toNat - 0xF0) * 64 + (second.toNat - 0x80)) * 64 +
        (third.toNat - 0x80)) * 64 + (last.toNat - 0x80) := ⟨_, rfl⟩
  obtain ⟨c, rfl⟩ := exists_toNat_eq (.inr (show 0xDFFF < code ∧ code < 0x110000 by omega))
  refine ⟨c, ?_⟩
  rw [encodeChar_four (by omega), ofNat_eq (show _ = start.toNat by omega),
    ofNat_eq (show _ = second.toNat by omega), ofNat_eq (show _ = third.toNat by omega),
    ofNat_eq (show _ = last.toNat by omega)]

end

/-- Of the bounds of a second byte, one or the other may be closer. -/
theorem toNat_of_inRange
    {lowest highest : Prop}
    [Decidable lowest]
    [Decidable highest]
    {least greatest byte : UInt8}
    (atLeast : 0x80 ≤ least.toNat)
    (atMost : greatest.toNat ≤ 0xBF)
    (inRange : (if lowest then least else 0x80) ≤ byte ∧
      byte ≤ (if highest then greatest else 0xBF)) :
    (0x80 ≤ byte.toNat ∧ byte.toNat ≤ 0xBF) ∧
      (lowest → least.toNat ≤ byte.toNat) ∧ (highest → byte.toNat ≤ greatest.toNat) := by
  obtain ⟨low, high⟩ := inRange
  rw [UInt8.le_iff_toNat_le] at low high
  refine ⟨⟨?_, ?_⟩, fun isLowest => ?_, fun isHighest => ?_⟩
  · split at low
    · exact Nat.le_trans atLeast low
    · exact low
  · split at high
    · exact Nat.le_trans high atMost
    · exact high
  · rwa [if_pos isLowest] at low
  · rwa [if_pos isHighest] at high

/-- Well-formed bytes start with the bytes of a character. -/
theorem exists_encodeChar
    {start : UInt8}
    {rest : Bytes}
    (wellFormed : (decodeFrom .start (start :: rest)).isMalformed = false) :
    ∃ c after, encodeChar c ++ after = start :: rest := by
  rw [decodeFrom_cons, step] at wellFormed
  by_cases one : start.toNat < 0x80
  · obtain ⟨c, code⟩ := exists_toNat_eq (.inl (show start.toNat < 0xD800 by omega))
    exact ⟨c, rest, by rw [encodeChar_one (by omega), ofNat_eq code, List.singleton_append]⟩
  · by_cases unused : start.toNat < 0xC2 ∨ 0xF5 ≤ start.toNat
    · have refused : first start = ([none], .start) := by
        rw [first_eq, if_neg one]
        split
        · rfl
        · repeat rw [if_neg (by omega)]
      rw [refused, List.singleton_append, isMalformed_cons_none] at wellFormed
      exact absurd wellFormed nofun
    · by_cases two : start.toNat < 0xE0
      · rw [first_eq, if_neg one, if_neg (by omega), if_pos two, List.nil_append] at wellFormed
        obtain ⟨second, after, rfl, secondGoesOn⟩ := exists_of_tail wellFormed
        obtain ⟨c, bytes⟩ := exists_encodeChar_two secondGoesOn
          (show 0xC2 ≤ start.toNat ∧ start.toNat < 0xE0 by omega)
        exact ⟨c, after, by rw [bytes]; rfl⟩
      · by_cases three : start.toNat < 0xF0
        · rw [first_three (by omega) three, List.nil_append] at wellFormed
          obtain ⟨second, after, rfl, inRange⟩ := exists_of_pending wellFormed
          rw [decodeFrom_next inRange] at wellFormed
          obtain ⟨third, after, rfl, thirdGoesOn⟩ := exists_of_tail wellFormed
          obtain ⟨secondGoesOn, lowest, surrogate⟩ :=
            toNat_of_inRange (by decide) (by decide) inRange
          obtain ⟨c, bytes⟩ := exists_encodeChar_three secondGoesOn thirdGoesOn
            ⟨Nat.le_of_not_lt two, three⟩ lowest surrogate
          exact ⟨c, after, by rw [bytes]; rfl⟩
        · rw [first_four (by omega) (by omega), List.nil_append] at wellFormed
          obtain ⟨second, after, rfl, inRange⟩ := exists_of_pending wellFormed
          rw [decodeFrom_next inRange] at wellFormed
          obtain ⟨third, after, rfl, thirdGoesOn⟩ := exists_of_tail wellFormed
          rw [State.tail, decodeFrom_next (inRange_of_toNat thirdGoesOn)] at wellFormed
          obtain ⟨last, after, rfl, lastGoesOn⟩ := exists_of_tail wellFormed
          obtain ⟨secondGoesOn, lowest, greatest⟩ :=
            toNat_of_inRange (by decide) (by decide) inRange
          obtain ⟨c, bytes⟩ := exists_encodeChar_four secondGoesOn thirdGoesOn lastGoesOn
            (show 0xF0 ≤ start.toNat ∧ start.toNat < 0xF5 by omega) lowest greatest
          exact ⟨c, after, by rw [bytes]; rfl⟩

/-- Bytes that are decoded without a fault are those of the decoded text. -/
theorem encode_text_decode
    {bytes : Bytes}
    (wellFormed : (decode bytes).isMalformed = false) :
    encode (decode bytes).text = bytes := by
  induction size : bytes.length using Nat.strongRecOn generalizing bytes with
  | ind length inductionHypothesis =>
      cases bytes with
      | nil => rfl
      | cons start rest =>
          obtain ⟨c, after, parts⟩ := exists_encodeChar wellFormed
          have shorter : after.length < length := by
            have total := congrArg List.length parts
            rw [List.length_append, length_encodeChar] at total
            have positive := c.utf8Size_pos
            omega
          rw [← parts, decode, decodeFrom_encodeChar] at wellFormed ⊢
          rw [isMalformed_cons_some] at wellFormed
          have behind := inductionHypothesis after.length shorter wellFormed rfl
          rw [Decoded.text, List.map_cons, encode_cons]
          exact congrArg (encodeChar c ++ ·) behind

theorem isMalformed_map_some (text : Text) : Decoded.isMalformed (text.map some) = false := by
  induction text with
  | nil => rfl
  | cons first rest inductionHypothesis => rwa [List.map_cons, isMalformed_cons_some]

theorem text_map_some (text : Text) : Decoded.text (text.map some) = text := by
  rw [Decoded.text, List.map_map]
  exact List.map_id text

/-- The bytes that are decoded without a fault, to a text, are those of that text. -/
theorem decode_eq_iff
    (bytes : Bytes)
    (text : Text) :
    (decode bytes).isMalformed = false ∧ (decode bytes).text = text ↔ bytes = encode text := by
  constructor
  · rintro ⟨wellFormed, rfl⟩
    exact (encode_text_decode wellFormed).symm
  · rintro rfl
    rw [decode_encode]
    exact ⟨isMalformed_map_some text, text_map_some text⟩

end CssRescale.Utf8
