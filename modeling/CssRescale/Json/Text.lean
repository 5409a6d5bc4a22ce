import CssRescale.Text.Basic

/-!
Contract: the strings and blanks of JSON text.

Owns: skipping blanks, and reading a string with its escapes. A control
character that is not escaped, an unknown escape and half of a surrogate pair
are refused.
-/

set_option autoImplicit false

namespace CssRescale.Json

/-- The characters that may stand between tokens. -/
def isBlank (c : Char) : Bool := c == ' ' || c == '\t' || c == '\n' || c == '\r'

def skipBlanks (text : Text) : Text := text.dropWhile isBlank

def hexDigit? (c : Char) : Option Nat :=
  if c.isDigit then some (c.toNat - '0'.toNat)
  else if 'a' ≤ c ∧ c ≤ 'f' then some (c.toNat - 'a'.toNat + 10)
  else if 'A' ≤ c ∧ c ≤ 'F' then some (c.toNat - 'A'.toNat + 10)
  else none

def hexUnit? (first second third fourth : Char) : Option Nat := do
  let high ← hexDigit? first
  let upper ← hexDigit? second
  let lower ← hexDigit? third
  let low ← hexDigit? fourth
  return ((high * 16 + upper) * 16 + lower) * 16 + low

/-- The character of an escape of one letter. -/
def shortEscape? (c : Char) : Option Char :=
  if c == '"' || c == '\\' || c == '/' then some c
  else if c == 'b' then some '\x08'
  else if c == 'f' then some '\x0c'
  else if c == 'n' then some '\n'
  else if c == 'r' then some '\r'
  else if c == 't' then some '\t'
  else none

/-- The first half of a surrogate pair. -/
def isHighSurrogate (unit : Nat) : Bool := 0xD800 ≤ unit && unit < 0xDC00

/-- The second half of a surrogate pair. -/
def isLowSurrogate (unit : Nat) : Bool := 0xDC00 ≤ unit && unit < 0xE000

/-- The character that a surrogate pair stands for. -/
def pairedChar (high low : Nat) : Char :=
  Char.ofNat (0x10000 + (high - 0xD800) * 0x400 + (low - 0xDC00))

/-- Puts a character before the string that is read after it. -/
def withChar (c : Char) (reading : Option (Text × Text)) : Option (Text × Text) :=
  reading.map fun (read, left) => (c :: read, left)

/-- Reads a string whose opening quote has been taken, and the text after its
closing quote. -/
def readString? : Text → Option (Text × Text)
  | [] => none
  | '"' :: rest => some ([], rest)
  | '\\' :: 'u' :: first :: second :: third :: fourth :: rest =>
      match hexUnit? first second third fourth with
      | none => none
      | some unit =>
          if isLowSurrogate unit then none
          else if isHighSurrogate unit then
            match rest with
            | '\\' :: 'u' :: fifth :: sixth :: seventh :: eighth :: afterPair =>
                match hexUnit? fifth sixth seventh eighth with
                | none => none
                | some low =>
                    if isLowSurrogate low then
                      withChar (pairedChar unit low) (readString? afterPair)
                    else none
            | _ => none
          else withChar (Char.ofNat unit) (readString? rest)
  | '\\' :: escaped :: rest =>
      match shortEscape? escaped with
      | none => none
      | some c => withChar c (readString? rest)
  | first :: rest =>
      if first.toNat < 32 || first == '\\' then none
      else withChar first (readString? rest)

end CssRescale.Json
