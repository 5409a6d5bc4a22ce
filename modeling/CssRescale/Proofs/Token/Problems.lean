import CssRescale.Proofs.Token.Locality
import CssRescale.Proofs.Token.Located

/-!
Contract: the tokens of a text that are out of place.

A token is out of place if it is a string or a comment that is not terminated, or a
closing parenthesis where none is open; which are open follows from the tokens before it.
If no token is out of place, parentheses can still be open at the end, and the innermost
of them is the one behind which all parentheses are nested.

Owns:
- how many parentheses are open, and whether those behind a place are nested;
- the tokens of a text that are out of place, and the first of them.

Does not own: what building a tree makes of them.
-/

set_option autoImplicit false

namespace CssRescale

namespace Token

/-! ## Open parentheses -/

/-- The number of open parentheses after a token. A closing one closes one of them, if
there is one. -/
def openAfterOne (count : Nat) : Token → Nat
  | openParen => count + 1
  | closeParen => count - 1
  | _ => count

/-- The number of parentheses that are open after tokens. -/
def openAfter (count : Nat) (tokens : List Token) : Nat := tokens.foldl openAfterOne count

/-- Do the tokens close as many parentheses as are open before them, and all those that
they open themselves? -/
def closes : Nat → List Token → Bool
  | count, [] => count == 0
  | count, openParen :: rest => closes (count + 1) rest
  | count, closeParen :: rest => 0 < count && closes (count - 1) rest
  | count, _ :: rest => closes count rest

/-- The name that the tokens before a parenthesis give to its call: the word right before
it, if there is one. -/
def callName (before : List Token) : Text :=
  match before.getLast? with
  | some (word name) => name
  | _ => []

/-- Only the last of the tokens before a parenthesis can name its call. -/
theorem callName_cons
    {token : Token}
    {before : List Token}
    (alone : before = [] → ∀ name, token ≠ word name) :
    callName (token :: before) = callName before := by
  cases before with
  | nil =>
      cases token with
      | word name => exact absurd rfl (alone rfl name)
      | _ => rfl
  | cons second before => rw [callName, callName, List.getLast?_cons_cons]

/-- The last of the tokens before a parenthesis names its call, if it is a word. -/
theorem callName_append_singleton (before : List Token) (last : Token) :
    callName (before ++ [last]) =
      match last with
      | word name => name
      | _ => [] := by
  rw [callName, List.getLast?_concat]
  cases last <;> rfl

/-! ## Tokens out of place -/

/-- Is the token out of place where this many parentheses are open? -/
def isOutOfPlace (count : Nat) : Token → Bool
  | closeParen => count == 0
  | token => !token.isTerminated

/-- The token is a part of the text and out of place there: a closing parenthesis when no
parenthesis is open, or a string or a comment that is not terminated. -/
def IsProblemOf (source : Text) (located : LocatedToken) : Prop :=
  ∃ before after, scanLocated source = before ++ located :: after ∧
    (located.token = closeParen ∧ openAfter 0 (before.map LocatedToken.token) = 0 ∨
      located.token.isTerminated = false)

theorem IsProblemOf.slice?
    {source : Text}
    {located : LocatedToken}
    (isProblem : IsProblemOf source located) :
    source.slice? located.offset (located.offset + Text.byteLength located.token.text) =
      some located.token.text := by
  obtain ⟨before, after, split, -⟩ := isProblem
  exact LocatedToken.slice?_of_scanLocated split

theorem isOutOfPlace_iff (count : Nat) (token : Token) :
    token.isOutOfPlace count = true ↔
      token = closeParen ∧ count = 0 ∨ token.isTerminated = false := by
  cases token <;> simp [isOutOfPlace, isTerminated]

/-- The first of the tokens that is out of place. -/
def firstProblem? : Nat → List LocatedToken → Option LocatedToken
  | _, [] => none
  | count, located :: rest =>
      if located.token.isOutOfPlace count then some located
      else firstProblem? (openAfterOne count located.token) rest

theorem firstProblem?_eq_none
    {count : Nat}
    {tokens : List LocatedToken}
    (inPlace : firstProblem? count tokens = none)
    {before after : List LocatedToken}
    {located : LocatedToken}
    (split : tokens = before ++ located :: after) :
    located.token.isOutOfPlace (openAfter count (before.map LocatedToken.token)) = false := by
  induction tokens generalizing count before with
  | nil => exact absurd split (by simp)
  | cons first rest inductionHypothesis =>
      rw [firstProblem?] at inPlace
      split at inPlace
      case isTrue => exact absurd inPlace nofun
      case isFalse here =>
        cases before with
        | nil =>
            obtain ⟨rfl, rfl⟩ := List.cons.inj split
            exact Bool.eq_false_iff.mpr here
        | cons other before =>
            obtain ⟨rfl, behind⟩ := List.cons.inj split
            exact inductionHypothesis inPlace behind

/-- The first problem is one, and the tokens before it are in their place. -/
theorem exists_of_firstProblem?
    {count : Nat}
    {tokens : List LocatedToken}
    {located : LocatedToken}
    (found : firstProblem? count tokens = some located) :
    ∃ before after, tokens = before ++ located :: after ∧
      located.token.isOutOfPlace (openAfter count (before.map LocatedToken.token)) = true ∧
      firstProblem? count before = none := by
  induction tokens generalizing count with
  | nil => exact absurd found nofun
  | cons first rest inductionHypothesis =>
      rw [firstProblem?] at found
      split at found
      case isTrue here =>
        obtain rfl := Option.some.inj found
        exact ⟨[], rest, rfl, here, rfl⟩
      case isFalse here =>
        obtain ⟨before, after, rfl, outOfPlace, earlier⟩ := inductionHypothesis found
        exact ⟨first :: before, after, rfl, outOfPlace, by rw [firstProblem?, if_neg here, earlier]⟩

/-- A text has no problem if none is found. -/
theorem not_isProblemOf
    {source : Text}
    (inPlace : firstProblem? 0 (scanLocated source) = none)
    (located : LocatedToken) :
    ¬IsProblemOf source located := by
  rintro ⟨before, after, split, problem⟩
  have outOfPlace := firstProblem?_eq_none inPlace split
  rw [(isOutOfPlace_iff _ _).mpr problem] at outOfPlace
  exact absurd outOfPlace nofun

/-- What is found is a problem, and there is none before it. -/
theorem isProblemOf_of_firstProblem?
    {source : Text}
    {located : LocatedToken}
    (found : firstProblem? 0 (scanLocated source) = some located) :
    IsProblemOf source located ∧
      ∀ other, IsProblemOf source other → located.offset ≤ other.offset := by
  obtain ⟨before, after, split, outOfPlace, earlier⟩ := exists_of_firstProblem? found
  refine ⟨⟨before, after, split, (isOutOfPlace_iff _ _).mp outOfPlace⟩, ?_⟩
  rintro other ⟨otherBefore, otherAfter, otherSplit, problem⟩
  rcases List.append_eq_append_iff.mp (split.symm.trans otherSplit) with
    ⟨between, rfl, -⟩ | ⟨between, rfl, tail⟩
  · rw [(LocatedToken.split_of_ofTokens split).2, (LocatedToken.split_of_ofTokens otherSplit).2,
      List.map_append, concat_append, Text.byteLength_append]
    omega
  · cases between with
    | nil =>
        obtain ⟨rfl, -⟩ := List.cons.inj tail
        exact Nat.le_refl _
    | cons first between =>
        -- Another problem cannot be one of the tokens before the first one.
        obtain ⟨rfl, -⟩ := List.cons.inj tail
        have inPlace := firstProblem?_eq_none earlier rfl
        rw [(isOutOfPlace_iff _ _).mpr problem] at inPlace
        exact absurd inPlace nofun

end Token

end CssRescale
