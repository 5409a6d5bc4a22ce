/-!
Contract: texts as lists of Unicode scalar values, measured in UTF-8 bytes.

Owns:
- the type `Text` and its length in bytes;
- cuts of a text at a byte position, refused inside a character;
- the ASCII character classes and the caseless comparison every scanner uses;
- the run of characters up to an unescaped stop.

Does not own: tokens, numbers, or the bytes of any encoding.
-/

set_option autoImplicit false

namespace CssRescale

/-- A text is the list of its characters. -/
abbrev Text := List Char

namespace Text

/-- The number of bytes of the UTF-8 form. -/
def byteLength : Text → Nat
  | [] => 0
  | first :: rest => first.utf8Size + byteLength rest

/-- Cuts a text after `count` bytes. There is no such cut beyond the end or inside a character. -/
def splitAtByte? : Text → Nat → Option (Text × Text)
  | rest, 0 => some ([], rest)
  | [], _ + 1 => none
  | first :: rest, count + 1 =>
      if first.utf8Size ≤ count + 1 then
        (splitAtByte? rest (count + 1 - first.utf8Size)).map fun (taken, left) =>
          (first :: taken, left)
      else
        none

/-- The part of a text between two byte positions. There is none if they are not in order. -/
def slice? (text : Text) (start stop : Nat) : Option Text :=
  if stop < start then none
  else do
    let (_, rest) ← splitAtByte? text start
    let (taken, _) ← splitAtByte? rest (stop - start)
    return taken

/-- ASCII letters compare without their case, all else as it is. -/
def equalIgnoringCase (left right : Text) : Bool :=
  left.map Char.toLower == right.map Char.toLower

end Text

/-- The white space of style sheets: space, tab, line feed, carriage return and form feed. -/
def isBlank (c : Char) : Bool :=
  c == ' ' || c == '\t' || c == '\n' || c == '\r' || c == '\x0c'

def isNonAscii (c : Char) : Bool := 128 ≤ c.toNat

def isQuote (c : Char) : Bool := c == '"' || c == '\''

/-- Either sign may stand before a number or an exponent. -/
def isSign (c : Char) : Bool := c == '+' || c == '-'

def isExponentMark (c : Char) : Bool := c == 'e' || c == 'E'

namespace Text

/-- The text up to the first character that `stops` and is not escaped, and what is left.

A backslash and the character after it are always taken together; a backslash
that ends the text is judged by `stops` like any other character. -/
def takeEscaped (stops : Char → Bool) : Text → Text × Text
  | [] => ([], [])
  | '\\' :: escaped :: rest =>
      let (taken, left) := takeEscaped stops rest
      ('\\' :: escaped :: taken, left)
  | first :: rest =>
      if stops first then ([], first :: rest)
      else
        let (taken, left) := takeEscaped stops rest
        (first :: taken, left)

/-- The leading decimal digits, and what is left. -/
def takeDigits (text : Text) : Text × Text :=
  (text.takeWhile Char.isDigit, text.dropWhile Char.isDigit)

/-- The leading sign, if there is one, and what is left. -/
def takeSign : Text → Text × Text
  | [] => ([], [])
  | first :: rest => if isSign first then ([first], rest) else ([], first :: rest)

theorem takeEscaped_append
    (stops : Char → Bool)
    (text : Text) :
    (takeEscaped stops text).1 ++ (takeEscaped stops text).2 = text := by
  fun_induction takeEscaped stops text with
  | case1 => rfl
  | case2 escaped rest taken left taking inductionHypothesis =>
      rw [taking] at inductionHypothesis
      simpa using inductionHypothesis
  | case3 => rfl
  | case4 first rest _ _ taken left taking inductionHypothesis =>
      rw [taking] at inductionHypothesis
      simpa using inductionHypothesis

/-- Something is taken where the first character does not stop. -/
theorem takeEscaped_ne_nil
    {stops : Char → Bool}
    {first : Char}
    (rest : Text)
    (goesOn : stops first = false) :
    (takeEscaped stops (first :: rest)).1 ≠ [] := by
  unfold takeEscaped
  split
  · rename_i impossible
    simp at impossible
  · simp
  · rename_i same
    simp only [List.cons.injEq] at same
    rw [← same.1, goesOn]
    simp

theorem takeDigits_append (text : Text) :
    (takeDigits text).1 ++ (takeDigits text).2 = text :=
  List.takeWhile_append_dropWhile

theorem takeSign_append (text : Text) :
    (takeSign text).1 ++ (takeSign text).2 = text := by
  cases text with
  | nil => rfl
  | cons first rest =>
      simp only [takeSign]
      split <;> rfl

/-- Does the text start with a decimal digit? -/
def startsWithDigit : Text → Bool
  | [] => false
  | first :: _ => first.isDigit

/-- The value of a run of decimal digits, most significant first. -/
def digitsValue (digits : Text) : Nat :=
  digits.foldl (fun value digit => 10 * value + (digit.toNat - '0'.toNat)) 0

end Text

end CssRescale
