import CssRescale.Text.Basic

/-!
Contract: bytes, and what decoding makes of them.

Decoding gives a list of units: a character, or a place where the bytes stand
for none. In text each such place is a replacement character.
-/

set_option autoImplicit false

namespace CssRescale

/-- Bytes of a file. -/
abbrev Bytes := List UInt8

/-- What decoding gives: characters, and places where there is none. -/
abbrev Decoded := List (Option Char)

namespace Decoded

/-- The character in place of bytes that stand for none. -/
def replacement : Char := Char.ofNat 0xFFFD

def text (decoded : Decoded) : Text := decoded.map fun unit => unit.getD replacement

/-- Is there a place without a character? -/
def isMalformed (decoded : Decoded) : Bool := decoded.any Option.isNone

end Decoded

end CssRescale
