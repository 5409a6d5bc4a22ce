import CssRescale.Text.Basic

/-!
Contract: names and escapes in style sheets.

Owns:
- the characters that start and continue a name;
- escapes, which are a backslash with a hexadecimal code or with any other
  character;
- reading a name, unescaped and as written.

Each reader returns what it took as written and what it left.
-/

set_option autoImplicit false

namespace CssRescale.Sheet

def isNewline (c : Char) : Bool := c == '\n' || c == '\r' || c == '\x0c'

/-- Does the text start with the end of a line? -/
def startsWithNewline : Text → Bool
  | [] => false
  | first :: _ => isNewline first

/-- The characters that stand in names without a backslash. NUL is among them. -/
def isNameChar (c : Char) : Bool :=
  c.isAlphanum || c == '_' || c == '-' || isNonAscii c || c.toNat == 0

/-- The character that stands for codes without one. -/
def replacement : Char := Char.ofNat 0xFFFD

/-- A character of a name, where NUL is replaced. -/
def nameChar (c : Char) : Char := if c.toNat == 0 then replacement else c

def isHexDigit (c : Char) : Bool :=
  c.isDigit || ('a' ≤ c && c ≤ 'f') || ('A' ≤ c && c ≤ 'F')

def hexValue (c : Char) : Nat :=
  if c.isDigit then c.toNat - '0'.toNat
  else if c.toNat < 'a'.toNat then c.toNat - 'A'.toNat + 10
  else c.toNat - 'a'.toNat + 10

/-- The character of a code; there is none for zero, surrogates and codes that are too large. -/
def codeChar (code : Nat) : Char :=
  if code = 0 then replacement
  else if Nat.isValidChar code then Char.ofNat code
  else replacement

def takeHex : Nat → Text → Text × Text
  | 0, text => ([], text)
  | _ + 1, [] => ([], [])
  | count + 1, first :: rest =>
      if isHexDigit first then (first :: (takeHex count rest).1, (takeHex count rest).2)
      else ([], first :: rest)

/-- At most one blank; a carriage return with its line feed is one. -/
def takeBlank : Text → Text × Text
  | '\r' :: '\n' :: rest => (['\r', '\n'], rest)
  | [] => ([], [])
  | first :: rest => if isBlank first then ([first], rest) else ([], first :: rest)

/-- The character that an escape stands for, given the text after its backslash. -/
def escapedChar : Text → Char
  | [] => replacement
  | first :: rest =>
      if isHexDigit first then
        codeChar ((takeHex 6 (first :: rest)).1.foldl (fun code c => code * 16 + hexValue c) 0)
      else nameChar first

/-- The text of an escape after its backslash, and what is left. -/
def takeEscape : Text → Text × Text
  | [] => ([], [])
  | first :: rest =>
      if isHexDigit first then
        let (digits, afterDigits) := takeHex 6 (first :: rest)
        let (blank, left) := takeBlank afterDigits
        (digits ++ blank, left)
      else ([first], rest)

theorem takeHex_append (count : Nat) (text : Text) :
    (takeHex count text).1 ++ (takeHex count text).2 = text := by
  fun_induction takeHex count text with
  | case1 => rfl
  | case2 => rfl
  | case3 count first rest hex inductionHypothesis => simpa using inductionHypothesis
  | case4 => rfl

theorem takeBlank_append (text : Text) : (takeBlank text).1 ++ (takeBlank text).2 = text := by
  unfold takeBlank
  split
  · rfl
  · rfl
  · split <;> rfl

theorem takeEscape_append (text : Text) : (takeEscape text).1 ++ (takeEscape text).2 = text := by
  cases text with
  | nil => rfl
  | cons first rest =>
      simp only [takeEscape]
      split
      · simp only [List.append_assoc, takeBlank_append, takeHex_append]
      · rfl

theorem length_takeEscape_le (text : Text) : (takeEscape text).2.length ≤ text.length := by
  have whole := congrArg List.length (takeEscape_append text)
  rw [List.length_append] at whole
  omega

/-- A name: unescaped, as written, and what is left. It may be empty. -/
def takeName : Text → Text × Text × Text
  | [] => ([], [], [])
  | first :: rest =>
      if first = '\\' then
        if startsWithNewline rest then ([], [], first :: rest)
        else
          let (name, raw, left) := takeName (takeEscape rest).2
          (escapedChar rest :: name, first :: (takeEscape rest).1 ++ raw, left)
      else if isNameChar first then
        let (name, raw, left) := takeName rest
        (nameChar first :: name, first :: raw, left)
      else ([], [], first :: rest)
termination_by text => text.length
decreasing_by
  · have := length_takeEscape_le rest
    simp only [List.length_cons]
    omega
  · simp

theorem takeName_append (text : Text) : (takeName text).2.1 ++ (takeName text).2.2 = text := by
  fun_induction takeName text with
  | case1 => rfl
  | case2 => rfl
  | case3 rest _ name raw left taking inductionHypothesis =>
      rw [taking] at inductionHypothesis
      simp only [List.cons_append, List.append_assoc] at inductionHypothesis ⊢
      rw [inductionHypothesis, takeEscape_append]
  | case4 first rest _ _ name raw left taking inductionHypothesis =>
      rw [taking] at inductionHypothesis
      simpa using inductionHypothesis
  | case5 => rfl

/-- Does a name start here? After a leading hyphen any backslash does. -/
def startsName : Text → Bool
  | [] => false
  | '-' :: rest =>
      match rest with
      | [] => false
      | second :: _ => second == '\\' || (isNameChar second && !second.isDigit)
  | '\\' :: rest => !startsWithNewline rest
  | first :: _ => isNameChar first && !first.isDigit

/-- Does the rest of a name follow here? -/
def continuesName : Text → Bool
  | [] => false
  | '\\' :: rest => !startsWithNewline rest
  | first :: _ => isNameChar first

end CssRescale.Sheet
