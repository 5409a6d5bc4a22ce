import CssRescale.Text.Basic

/-!
Contract: the tokens of a declaration value.

Owns: the type `Token`, the text each token stands for, and tokens with the
byte offset at which they start.

Does not own: finding the tokens of a text.
-/

set_option autoImplicit false

namespace CssRescale

/-- A token of a declaration value. Every token holds its text, so the texts of
all tokens together are the value. -/
inductive Token where
  /-- A numeric literal and its unit, which may be empty. -/
  | number (literal unit : Text)
  | string (raw : Text) (terminated : Bool)
  | comment (raw : Text) (terminated : Bool)
  /-- An identifier, a keyword, the body of an unquoted URL or any other run. -/
  | word (raw : Text)
  /-- A separator that is neither white space nor a comma, such as `/` or `!important`. -/
  | operator (raw : Text)
  | openParen
  | closeParen
  | comma
  | space (raw : Text)
deriving DecidableEq, Repr

namespace Token

def text : Token → Text
  | number literal unit => literal ++ unit
  | string raw _ => raw
  | comment raw _ => raw
  | word raw => raw
  | operator raw => raw
  | openParen => ['(']
  | closeParen => [')']
  | comma => [',']
  | space raw => raw

/-- The texts of tokens, one after another. -/
def concat (tokens : List Token) : Text := tokens.flatMap text

@[simp]
theorem concat_cons (token : Token) (tokens : List Token) :
    concat (token :: tokens) = token.text ++ concat tokens := rfl

end Token

/-- A token and the byte offset at which it starts. -/
structure LocatedToken where
  offset : Nat
  token : Token
deriving DecidableEq, Repr

/-- Gives each token the offset that follows from the texts before it. -/
def LocatedToken.ofTokens : Nat → List Token → List LocatedToken
  | _, [] => []
  | offset, token :: rest =>
      ⟨offset, token⟩ :: ofTokens (offset + Text.byteLength token.text) rest

end CssRescale
