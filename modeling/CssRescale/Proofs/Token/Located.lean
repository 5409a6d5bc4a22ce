import CssRescale.Proofs.Text.Bytes
import CssRescale.Proofs.Token.Run

/-!
Contract: tokens at their places in a text.

The offset of a token is the length in bytes of the texts of the tokens before it. So a
token is the slice of the text at its offset, and the same tokens further in a text have
larger offsets and are the same otherwise.

Owns: located tokens among other tokens, as slices of their text, and at a distance.
-/

set_option autoImplicit false

namespace CssRescale

open Text (byteLength)

theorem Token.concat_append (left right : List Token) :
    concat (left ++ right) = concat left ++ concat right :=
  List.flatMap_append

namespace LocatedToken

/-! ## Tokens at a distance -/

/-- The token that much further in the text. -/
def shift (distance : Nat) (located : LocatedToken) : LocatedToken :=
  { located with offset := located.offset + distance }

theorem ofTokens_append (offset : Nat) (front back : List Token) :
    ofTokens offset (front ++ back) =
      ofTokens offset front ++ ofTokens (offset + byteLength (Token.concat front)) back := by
  induction front generalizing offset with
  | nil => rfl
  | cons token rest inductionHypothesis =>
      rw [List.cons_append, ofTokens, inductionHypothesis, Token.concat_cons,
        Text.byteLength_append, Nat.add_assoc]
      rfl

theorem map_shift_ofTokens (distance offset : Nat) (tokens : List Token) :
    (ofTokens offset tokens).map (shift distance) = ofTokens (offset + distance) tokens := by
  induction tokens generalizing offset with
  | nil => rfl
  | cons token rest inductionHypothesis =>
      rw [ofTokens, ofTokens, List.map_cons, inductionHypothesis, Nat.add_right_comm]
      rfl

theorem map_token_ofTokens (offset : Nat) (tokens : List Token) :
    (ofTokens offset tokens).map LocatedToken.token = tokens := by
  induction tokens generalizing offset with
  | nil => rfl
  | cons token rest inductionHypothesis => rw [ofTokens, List.map_cons, inductionHypothesis]

/-! ## Slices -/

theorem length_ofTokens (offset : Nat) (tokens : List Token) :
    (ofTokens offset tokens).length = tokens.length := by
  rw [← List.length_map LocatedToken.token, map_token_ofTokens]

/-- A token among located ones, with the tokens before and behind it. -/
theorem split_of_ofTokens
    {offset : Nat}
    {tokens : List Token}
    {before after : List LocatedToken}
    {located : LocatedToken}
    (split : ofTokens offset tokens = before ++ located :: after) :
    tokens = before.map token ++ located.token :: after.map token ∧
      located.offset = offset + byteLength (Token.concat (before.map token)) := by
  have parts : tokens = before.map token ++ located.token :: after.map token := by
    rw [← map_token_ofTokens offset tokens, split, List.map_append, List.map_cons]
  refine ⟨parts, ?_⟩
  rw [parts, ofTokens_append] at split
  obtain ⟨-, same⟩ := List.append_inj split (by rw [length_ofTokens, List.length_map])
  exact congrArg LocatedToken.offset (List.cons.inj same).1.symm

/-- The slice of a text at a token is the text of the token. -/
theorem slice?_of_scanLocated
    {source : Text}
    {before after : List LocatedToken}
    {located : LocatedToken}
    (split : Token.scanLocated source = before ++ located :: after) :
    source.slice? located.offset (located.offset + byteLength located.token.text) =
      some located.token.text := by
  obtain ⟨parts, offset⟩ := split_of_ofTokens split
  have source_eq : source = Token.concat (before.map token) ++
      (located.token.text ++ Token.concat (after.map token)) := by
    rw [← Token.concat_cons, ← Token.concat_append, ← parts, Token.concat_scan]
  rw [offset, Nat.zero_add, ← Text.byteLength_append]
  exact source_eq ▸ Text.slice?_append _ _ _

end LocatedToken

end CssRescale
