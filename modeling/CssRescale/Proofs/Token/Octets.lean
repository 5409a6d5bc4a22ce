import CssRescale.Proofs.Encoding.Utf8
import CssRescale.Token.Scan

/-!
Contract: a scanner of bytes.

The scanner knows nothing of characters. It tests single bytes, an escape takes two bytes
whatever they are, and so it can stop inside a character; where it can, it goes on to
the next byte that starts one. What expects the body of a URL are two flags.

Owns:
- tokens of bytes, and one reader for each part and kind of token;
- a step of the scanner, and its runs.

Does not own: what the scanner makes of the bytes of a text.
-/

set_option autoImplicit false

namespace CssRescale

/-- A token of bytes. The unit of a number starts at an offset in it. -/
inductive OctetToken where
  | number (octets : Bytes) (unitStart : Nat)
  | string (octets : Bytes) (terminated : Bool)
  | comment (octets : Bytes) (terminated : Bool)
  | word (octets : Bytes)
  | operator (octets : Bytes)
  | openParen
  | closeParen
  | comma
  | space (octets : Bytes)
deriving DecidableEq, Repr

/-- The token of the bytes of a token. -/
def Token.octets : Token → OctetToken
  | number literal unit => .number (Utf8.encode (literal ++ unit)) (Utf8.encode literal).length
  | string raw terminated => .string (Utf8.encode raw) terminated
  | comment raw terminated => .comment (Utf8.encode raw) terminated
  | word raw => .word (Utf8.encode raw)
  | operator raw => .operator (Utf8.encode raw)
  | openParen => .openParen
  | closeParen => .closeParen
  | comma => .comma
  | space raw => .space (Utf8.encode raw)

namespace Octets

/-! ## Bytes -/

/-- Is the byte a character of ASCII that `holds`? -/
def ascii (holds : Char → Bool) (byte : UInt8) : Bool :=
  byte < 0x80 && holds (Char.ofNat byte.toNat)

/-- Is the byte a part of a character beyond ASCII? -/
def isBeyond (byte : UInt8) : Bool := 0x80 ≤ byte

/-- Do the bytes start with a character of ASCII that `holds`? -/
def startsWith (holds : Char → Bool) : Bytes → Bool
  | [] => false
  | first :: _ => ascii holds first

/-- Are the bytes one character of ASCII for each of these classes? -/
def areEach : List (Char → Bool) → Bytes → Bool
  | [], [] => true
  | holds :: others, first :: rest => ascii holds first && areEach others rest
  | _, _ => false

/-! ## Readers -/

/-- The bytes up to the first one that `stops`, and what is left. A backslash and the byte
after it are taken together. -/
def takeEscaped (stops : UInt8 → Bool) : Bytes → Bytes × Bytes
  | [] => ([], [])
  | 0x5C :: escaped :: rest =>
      let (taken, left) := takeEscaped stops rest
      (0x5C :: escaped :: taken, left)
  | first :: rest =>
      if stops first then ([], first :: rest)
      else
        let (taken, left) := takeEscaped stops rest
        (first :: taken, left)

/-- Goes on to the next byte that starts a character. -/
def realign (parts : Bytes × Bytes) : Bytes × Bytes :=
  (parts.1 ++ parts.2.takeWhile Utf8.isContinuation, parts.2.dropWhile Utf8.isContinuation)

def takeDigits (octets : Bytes) : Bytes × Bytes :=
  (octets.takeWhile (ascii Char.isDigit), octets.dropWhile (ascii Char.isDigit))

def takeSign : Bytes → Bytes × Bytes
  | [] => ([], [])
  | first :: rest => if ascii isSign first then ([first], rest) else ([], first :: rest)

def startsFraction : Bytes → Bool
  | [] => false
  | point :: rest => ascii (· == '.') point && startsWith Char.isDigit rest

def takeFraction : Bytes → Bytes × Bytes
  | [] => ([], [])
  | point :: rest =>
      if startsFraction (point :: rest) then (point :: (takeDigits rest).1, (takeDigits rest).2)
      else ([], point :: rest)

def takeExponent : Bytes → Bytes × Bytes
  | [] => ([], [])
  | mark :: rest =>
      let (sign, afterSign) := takeSign rest
      if ascii isExponentMark mark && startsWith Char.isDigit afterSign then
        (mark :: sign ++ (takeDigits afterSign).1, (takeDigits afterSign).2)
      else
        ([], mark :: rest)

def takeLiteral (octets : Bytes) : Bytes × Bytes :=
  let (sign, afterSign) := takeSign octets
  let (whole, afterWhole) := takeDigits afterSign
  let (fraction, afterFraction) := takeFraction afterWhole
  let (exponent, left) := takeExponent afterFraction
  (sign ++ whole ++ fraction ++ exponent, left)

def takeIdentifier (octets : Bytes) : Bytes × Bytes :=
  realign (takeEscaped (ascii fun c => !Token.continuesIdentifier c) octets)

def startsUnit : Bytes → Bool
  | [] => false
  | first :: rest =>
      ascii (fun c => c.isAlpha || c == '_') first || isBeyond first
        || ascii (· == '\\') first && !rest.isEmpty

def takeUnit (octets : Bytes) : Bytes × Bytes :=
  if startsWith (· == '%') octets then octets.splitAt 1
  else if startsUnit octets then takeIdentifier octets
  else ([], octets)

def takeString (quote : Char) (octets : Bytes) : Bytes × Bool × Bytes :=
  match takeEscaped (ascii (· == quote)) octets with
  | (body, []) => (body, false, [])
  | (body, closing :: rest) => (body ++ [closing], true, rest)

def takeComment : Bytes → Bytes × Bool × Bytes
  | [] => ([], false, [])
  | first :: rest =>
      if ascii (· == '*') first && startsWith (· == '/') rest then
        (first :: rest.take 1, true, rest.drop 1)
      else
        let (taken, terminated, left) := takeComment rest
        (first :: taken, terminated, left)

def startsNumber (octets : Bytes) : Bool :=
  startsWith Char.isDigit (takeSign octets).2 || startsFraction (takeSign octets).2

def followsDash : Bytes → Bool
  | [] => false
  | second :: _ =>
      ascii (fun c => c.isAlpha || c == '-' || c == '_') second || isBeyond second

def startsDashedWord : Bytes → Bool
  | [] => false
  | first :: rest => ascii (· == '-') first && followsDash rest

/-! ## One token -/

def readNumber (octets : Bytes) : OctetToken × Bytes :=
  let (literal, afterLiteral) := takeLiteral octets
  let (unit, left) := takeUnit afterLiteral
  (.number (literal ++ unit) literal.length, left)

def readWord (octets : Bytes) : OctetToken × Bytes :=
  let (raw, left) := realign (takeEscaped (ascii Token.endsWord) octets)
  (.word raw, left)

def readString (first : UInt8) (rest : Bytes) : OctetToken × Bytes :=
  let (body, terminated, left) := takeString (Char.ofNat first.toNat) rest
  (.string (first :: body) terminated, left)

/-- A comment, whose opening is two bytes. -/
def readComment (octets : Bytes) : OctetToken × Bytes :=
  let (body, terminated, left) := takeComment (octets.drop 2)
  (.comment (octets.take 2 ++ body) terminated, left)

def readMark (first : UInt8) (rest : Bytes) : OctetToken × Bytes :=
  let (name, left) := takeIdentifier rest
  (.operator (first :: name), left)

/-- The token that starts with the first byte, where no body of a URL is expected. -/
def nextOf (first : UInt8) (rest : Bytes) : OctetToken × Bytes :=
  if ascii isBlank first then
    (.space ((first :: rest).takeWhile (ascii isBlank)), (first :: rest).dropWhile (ascii isBlank))
  else if ascii isQuote first then readString first rest
  else if ascii (· == '/') first && startsWith (· == '*') rest then readComment (first :: rest)
  else if ascii (· == '(') first then (.openParen, rest)
  else if ascii (· == ')') first then (.closeParen, rest)
  else if ascii (· == ',') first then (.comma, rest)
  else if ascii (· == '!') first then readMark first rest
  else if startsNumber (first :: rest) then readNumber (first :: rest)
  else if startsDashedWord (first :: rest) then readWord (first :: rest)
  else if ascii Token.isOperator first then (.operator [first], rest)
  else readWord (first :: rest)

/-- The unquoted body of a URL. -/
def takeUrlBody? (octets : Bytes) : Option (Bytes × Bytes) :=
  match octets.dropWhile (ascii isBlank) with
  | [] => none
  | first :: _ =>
      if ascii isQuote first || ascii (· == ')') first then none
      else some (realign (takeEscaped (ascii (· == ')')) octets))

/-! ## Steps and runs -/

/-- What the scanner remembers of a URL. -/
structure Flags where
  /-- The last token was the name, and a parenthesis follows. -/
  pending : Bool
  /-- The last token was the parenthesis after the name. -/
  body : Bool
deriving DecidableEq, Repr

/-- The classes of the letters in the name of a URL, in any case. -/
def urlLetters : List (Char → Bool) :=
  Token.urlName.map fun letter c => c.toLower == letter

/-- The flags after a token that is no body of a URL, given the bytes behind it. -/
def Flags.after (flags : Flags) (token : OctetToken) (left : Bytes) : Flags :=
  match token with
  | .openParen => ⟨false, flags.pending⟩
  | .word raw => ⟨areEach urlLetters raw && startsWith (· == '(') left, false⟩
  | _ => ⟨flags.pending, false⟩

/-- The next token, the flags after it and the bytes behind it; none at the end. -/
def next? (flags : Flags) : Bytes → Option (OctetToken × Flags × Bytes)
  | [] => none
  | first :: rest =>
      match if flags.body then takeUrlBody? (first :: rest) else none with
      | some (body, left) => some (.word body, ⟨flags.pending, false⟩, left)
      | none =>
          let (token, left) := nextOf first rest
          some (token, flags.after token left, left)

/-- A token of bytes and the offset at which it starts. -/
structure Located where
  offset : Nat
  token : OctetToken
deriving DecidableEq, Repr

/-- The scanner, at an offset with these bytes before it, takes these tokens and stops. -/
inductive Runs : Flags → Nat → Bytes → List Located → Prop where
  | stop {flags : Flags} {offset : Nat} {octets : Bytes}
      (ended : next? flags octets = none) :
      Runs flags offset octets []
  | step {flags after : Flags} {offset : Nat} {octets left : Bytes} {token : OctetToken}
      {tokens : List Located}
      (reads : next? flags octets = some (token, after, left))
      (goesOn : Runs after (offset + (octets.length - left.length)) left tokens) :
      Runs flags offset octets (⟨offset, token⟩ :: tokens)

/-- A scanner takes one list of tokens only. -/
theorem Runs.unique
    {flags : Flags}
    {offset : Nat}
    {octets : Bytes}
    {tokens others : List Located}
    (runs : Runs flags offset octets tokens)
    (runsToo : Runs flags offset octets others) :
    tokens = others := by
  induction runs generalizing others with
  | stop ended =>
      cases runsToo with
      | stop _ => rfl
      | step reads _ => exact absurd (ended.symm.trans reads) nofun
  | step reads _ inductionHypothesis =>
      cases runsToo with
      | stop ended => exact absurd (ended.symm.trans reads) nofun
      | step readsToo goesOn =>
          cases reads.symm.trans readsToo
          rw [inductionHypothesis goesOn]

end Octets

end CssRescale
