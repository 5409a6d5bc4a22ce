import CssRescale.Encoding.Basic

/-!
Contract: decoding of UTF-8.

The decoder reads byte by byte. A byte that cannot go on a character ends it
without one and is read again from the start; so each longest start of a
character that is not completed gives one place without a character.
-/

set_option autoImplicit false

namespace CssRescale.Utf8

/-- Where the decoder stands between bytes. -/
inductive State where
  | start
  /-- In a character that needs `more + 1` further bytes; the next one must be
  in the given range. -/
  | pending (more : Nat) (code : Nat) (least greatest : UInt8)
deriving DecidableEq, Repr

/-- A character that needs further bytes of the usual range. -/
def State.tail (more : Nat) (code : Nat) : State := .pending more code 0x80 0xBF

/-- Reads the first byte of a character. -/
def first (byte : UInt8) : Decoded × State :=
  let code := byte.toNat
  if byte < 0x80 then ([some (Char.ofNat code)], .start)
  else if byte < 0xC2 then ([none], .start)
  else if byte < 0xE0 then ([], .tail 0 (code - 0xC0))
  else if byte = 0xE0 then ([], .pending 1 0 0xA0 0xBF)
  else if byte = 0xED then ([], .pending 1 0xD 0x80 0x9F)
  else if byte < 0xF0 then ([], .tail 1 (code - 0xE0))
  else if byte = 0xF0 then ([], .pending 2 0 0x90 0xBF)
  else if byte < 0xF4 then ([], .tail 2 (code - 0xF0))
  else if byte = 0xF4 then ([], .pending 2 4 0x80 0x8F)
  else ([none], .start)

def step (state : State) (byte : UInt8) : Decoded × State :=
  match state with
  | .start => first byte
  | .pending more code least greatest =>
      if least ≤ byte ∧ byte ≤ greatest then
        let longer := code * 64 + (byte.toNat - 0x80)
        match more with
        | 0 => ([some (Char.ofNat longer)], .start)
        | fewer + 1 => ([], .tail fewer longer)
      else
        (none :: (first byte).1, (first byte).2)

/-- Reads all bytes from a state on. -/
def decodeFrom : State → Bytes → Decoded
  | .start, [] => []
  | .pending _ _ _ _, [] => [none]
  | state, byte :: rest => (step state byte).1 ++ decodeFrom (step state byte).2 rest

def decode (bytes : Bytes) : Decoded := decodeFrom .start bytes

def encodeChar (c : Char) : Bytes :=
  let code := c.toNat
  let byte (n : Nat) : UInt8 := UInt8.ofNat n
  if code < 0x80 then [byte code]
  else if code < 0x800 then [byte (0xC0 + code / 64), byte (0x80 + code % 64)]
  else if code < 0x10000 then
    [byte (0xE0 + code / 4096), byte (0x80 + code / 64 % 64), byte (0x80 + code % 64)]
  else
    [byte (0xF0 + code / 262144), byte (0x80 + code / 4096 % 64),
      byte (0x80 + code / 64 % 64), byte (0x80 + code % 64)]

def encode (text : Text) : Bytes := text.flatMap encodeChar

end CssRescale.Utf8
