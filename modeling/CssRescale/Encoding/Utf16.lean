import CssRescale.Encoding.Basic

/-!
Contract: decoding of UTF-16 in either byte order.

Two bytes are a unit. A unit that is half of a surrogate pair without its
partner gives one place without a character; so does whatever is left over at
the end, be it a byte, half of a pair, or both.
-/

set_option autoImplicit false

namespace CssRescale.Utf16

/-- The order of the two bytes of a unit. -/
inductive ByteOrder where
  | littleEndian
  | bigEndian
deriving DecidableEq, Repr

def unit (order : ByteOrder) (first second : UInt8) : Nat :=
  match order with
  | .littleEndian => second.toNat * 256 + first.toNat
  | .bigEndian => first.toNat * 256 + second.toNat

/-- The first half of a surrogate pair. -/
def isHigh (value : Nat) : Bool := 0xD800 ≤ value && value < 0xDC00

/-- The second half of a surrogate pair. -/
def isLow (value : Nat) : Bool := 0xDC00 ≤ value && value < 0xE000

/-- Reads a unit where no half of a pair is waiting; the second part is the half
that is waiting then. -/
def fresh (value : Nat) : Decoded × Option Nat :=
  if isHigh value then ([], some value)
  else if isLow value then ([none], none)
  else ([some (Char.ofNat value)], none)

def step (waiting : Option Nat) (value : Nat) : Decoded × Option Nat :=
  match waiting with
  | none => fresh value
  | some high =>
      if isLow value then
        ([some (Char.ofNat (0x10000 + (high - 0xD800) * 0x400 + (value - 0xDC00)))], none)
      else
        (none :: (fresh value).1, (fresh value).2)

/-- Reads all bytes, with the half of a pair that is waiting. -/
def decodeFrom (order : ByteOrder) : Option Nat → Bytes → Decoded
  | none, [] => []
  | some _, [] => [none]
  | _, [_] => [none]
  | waiting, first :: second :: rest =>
      (step waiting (unit order first second)).1
        ++ decodeFrom order (step waiting (unit order first second)).2 rest

def decode (order : ByteOrder) (bytes : Bytes) : Decoded := decodeFrom order none bytes

end CssRescale.Utf16
