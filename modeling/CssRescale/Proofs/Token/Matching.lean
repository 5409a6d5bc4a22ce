import CssRescale.Proofs.Token.Problems
import Mathlib.Data.List.Induction

/-!
Contract: parentheses that belong together.

An opening and a closing parenthesis match if all parentheses between them are nested. Of
an opening one this can be seen from the tokens behind it, and of a closing one from the
tokens before it. How deep a token stands is the number of opening parentheses before it
less that of the matched closing ones. Counting from token to token gives the same.

Owns:
- the tokens of a text at their places;
- matched parentheses and the depth of a place;
- matching and depth by counters.

Does not own: what building a tree makes of parentheses.
-/

set_option autoImplicit false

namespace CssRescale.Token

/-! ## Places -/

/-- A token with the tokens before and behind it. -/
structure Place where
  before : List Token
  token : Token
  after : List Token

/-- The places of tokens that stand behind others. -/
def placesFrom (before : List Token) : List Token → List Place
  | [] => []
  | token :: after => ⟨before, token, after⟩ :: placesFrom (before ++ [token]) after

/-- The places of tokens, in order. -/
def places (tokens : List Token) : List Place := placesFrom [] tokens

/-- With one more token at the end, there is one more place, and all others are before it. -/
theorem placesFrom_append_singleton (before tokens : List Token) (last : Token) :
    placesFrom before (tokens ++ [last]) =
      (placesFrom before tokens).map (fun place => { place with after := place.after ++ [last] })
        ++ [⟨before ++ tokens, last, []⟩] := by
  induction tokens generalizing before with
  | nil => simp [placesFrom]
  | cons token rest inductionHypothesis =>
      rw [List.cons_append, placesFrom, inductionHypothesis, placesFrom]
      simp

/-! ## Matched parentheses -/

/-- A closing parenthesis behind these tokens is matched: there is an opening one among
them behind which all parentheses are nested. -/
def IsOpenedIn (before : List Token) : Prop :=
  ∃ front inside, before = front ++ openParen :: inside ∧ closes 0 inside = true

/-- An opening parenthesis before these tokens is matched: there is a closing one among
them before which all parentheses are nested. -/
def IsClosedIn (after : List Token) : Prop :=
  ∃ inside behind, after = inside ++ closeParen :: behind ∧ closes 0 inside = true

/-- Do the tokens close the parenthesis around this many others that are open before them? -/
def closesOuter : Nat → List Token → Bool
  | _, [] => false
  | count, openParen :: rest => closesOuter (count + 1) rest
  | 0, closeParen :: _ => true
  | count + 1, closeParen :: rest => closesOuter count rest
  | count, _ :: rest => closesOuter count rest

/-- A token found in a text is its first one, or is found in the rest. -/
theorem exists_split_cons_iff
    {first token : Token}
    {rest : List Token}
    {holds : List Token → List Token → Prop} :
    (∃ front back, first :: rest = front ++ token :: back ∧ holds front back) ↔
      (first = token ∧ holds [] rest) ∨
        ∃ front back, rest = front ++ token :: back ∧ holds (first :: front) back := by
  constructor
  · rintro ⟨front, back, shape, here⟩
    cases front with
    | nil =>
        obtain ⟨rfl, rfl⟩ := List.cons.inj shape
        exact .inl ⟨rfl, here⟩
    | cons other front =>
        obtain ⟨rfl, rfl⟩ := List.cons.inj shape
        exact .inr ⟨front, back, rfl, here⟩
  · rintro (⟨rfl, here⟩ | ⟨front, back, rfl, here⟩)
    · exact ⟨[], rest, rfl, here⟩
    · exact ⟨first :: front, back, rfl, here⟩

theorem closesOuter_iff (count : Nat) (tokens : List Token) :
    closesOuter count tokens = true ↔
      ∃ inside behind, tokens = inside ++ closeParen :: behind ∧ closes count inside = true := by
  induction tokens generalizing count with
  | nil => simp [closesOuter]
  | cons token rest inductionHypothesis =>
      rw [exists_split_cons_iff]
      cases token with
      | closeParen =>
          cases count with
          | zero => simp [closesOuter, closes]
          | succ count => simp [closesOuter, closes, inductionHypothesis]
      | _ => simp [closesOuter, closes, inductionHypothesis]

/-- An opening parenthesis is matched if a counter that starts behind it gets below zero. -/
theorem isClosedIn_iff (after : List Token) : IsClosedIn after ↔ closesOuter 0 after = true :=
  (closesOuter_iff 0 after).symm

/-- Parentheses are open behind tokens if one of the tokens opened one, or if the tokens
did not close all that were open before them. -/
theorem openAfter_pos_iff (count : Nat) (tokens : List Token) :
    0 < openAfter count tokens ↔
      IsOpenedIn tokens ∨ ∃ closed < count, closes closed tokens = true := by
  induction tokens generalizing count with
  | nil => simp [openAfter, IsOpenedIn, closes]
  | cons token rest inductionHypothesis =>
      have opened : IsOpenedIn (token :: rest) ↔
          (token = openParen ∧ closes 0 rest = true) ∨ IsOpenedIn rest := exists_split_cons_iff
      have after : openAfter count (token :: rest) = openAfter (openAfterOne count token) rest :=
        rfl
      rw [after, inductionHypothesis, opened]
      cases token with
      | openParen =>
          rw [openAfterOne, Nat.exists_lt_succ_left]
          simp only [closes, true_and]
          tauto
      | closeParen =>
          cases count with
          | zero => simp [openAfterOne]
          | succ count =>
              rw [Nat.exists_lt_succ_left]
              simp [openAfterOne, closes]
      | _ => simp [openAfterOne, closes]

theorem isOpenedIn_iff (before : List Token) : IsOpenedIn before ↔ 0 < openAfter 0 before := by
  simp [openAfter_pos_iff]

instance (before : List Token) : Decidable (IsOpenedIn before) :=
  decidable_of_iff _ (isOpenedIn_iff before).symm

instance (after : List Token) : Decidable (IsClosedIn after) :=
  decidable_of_iff _ (isClosedIn_iff after).symm

/-! ## Depth -/

/-- The number of closing parentheses among tokens that are matched. -/
def matchedCloses (tokens : List Token) : Nat :=
  (places tokens).countP fun place => place.token = closeParen ∧ IsOpenedIn place.before

/-- How deep a token stands behind others: the number of opening parentheses among them less
that of the matched closing ones. -/
def depth (before : List Token) : Nat := before.count openParen - matchedCloses before

theorem matchedCloses_append_singleton (tokens : List Token) (last : Token) :
    matchedCloses (tokens ++ [last]) =
      matchedCloses tokens + if last = closeParen ∧ IsOpenedIn tokens then 1 else 0 := by
  -- Whether a closing parenthesis is matched does not depend on what is behind it.
  rw [matchedCloses, places, placesFrom_append_singleton, List.countP_append, List.countP_map,
    List.countP_singleton]
  simp [matchedCloses, places, Function.comp_def]

/-- Every opening parenthesis is open in the end, or a closing one matches it. -/
theorem openAfter_add_matchedCloses (tokens : List Token) :
    openAfter 0 tokens + matchedCloses tokens = tokens.count openParen := by
  induction tokens using List.reverseRecOn with
  | nil => rfl
  | append_singleton tokens last inductionHypothesis =>
      have after : openAfter 0 (tokens ++ [last]) = openAfterOne (openAfter 0 tokens) last :=
        List.foldl_append
      rw [after, matchedCloses_append_singleton, List.count_append, ← inductionHypothesis]
      simp only [isOpenedIn_iff]
      cases last with
      | openParen => simp [openAfterOne, Nat.add_right_comm]
      | closeParen =>
          have other : [closeParen].count openParen = 0 := rfl
          simp only [openAfterOne, true_and, other]
          split <;> omega
      | _ => simp [openAfterOne]

theorem depth_eq (before : List Token) : depth before = openAfter 0 before := by
  rw [depth, ← openAfter_add_matchedCloses, Nat.add_sub_cancel]

-- The first closing parenthesis matches nothing, the other two match.
example : depth [closeParen, openParen, openParen, closeParen, closeParen, openParen] = 1 := by
  decide

end CssRescale.Token
