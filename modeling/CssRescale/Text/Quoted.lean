import CssRescale.Text.Basic

/-!
Contract: texts as messages quote them.

A quoted text stands between double quotes. Quotes and backslashes are escaped,
tab, line feed, carriage return and NUL have short escapes, and every other
control character is written as its code in hexadecimal.
-/

set_option autoImplicit false

namespace CssRescale.Text

/-- The control characters: the two ranges around the printable ASCII characters
and the one after them. -/
def isControl (c : Char) : Bool := c.toNat < 32 || (127 ≤ c.toNat && c.toNat < 160)

/-- A character as it stands between the quotes. -/
def quotedChar (c : Char) : Text :=
  if c == '"' then ['\\', '"']
  else if c == '\\' then ['\\', '\\']
  else if c == '\t' then ['\\', 't']
  else if c == '\n' then ['\\', 'n']
  else if c == '\r' then ['\\', 'r']
  else if c.toNat == 0 then ['\\', '0']
  else if isControl c then ['\\', 'u', '\x7b'] ++ Nat.toDigits 16 c.toNat ++ ['\x7d']
  else [c]

def quoted (text : Text) : Text := '"' :: text.flatMap quotedChar ++ ['"']

end CssRescale.Text
