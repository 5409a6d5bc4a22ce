import CssRescale.Proofs.Token.Kinds
import CssRescale.Sheet.Token

/-!
Contract: which token of a style sheet starts where, and what its kind says of its text.

The tokens are told apart by their first characters. So the choice of a reader has an
inversion, and the tokens that give a sheet its structure are written with the one
character that they are named after.

Owns:
- the relation `SheetToken.Starts` between the text at hand and the token that is read;
- the texts of the tokens, one after another, are the scanned text;
- the texts of colons, semicolons and brackets.
-/

set_option autoImplicit false

namespace CssRescale

def Bracket.openingChar : Bracket → Char
  | .round => '('
  | .square => '['
  | .curly => '\x7b'

def Bracket.closingChar : Bracket → Char
  | .round => ')'
  | .square => ']'
  | .curly => '\x7d'

/-- The character that is the whole text of every token of the kind. -/
def SheetTokenKind.mark? : SheetTokenKind → Option Char
  | .colon => some ':'
  | .semicolon => some ';'
  | .closing bracket => some bracket.closingChar
  | _ => none

namespace SheetToken

open Sheet

/-! ## The choice of the reader -/

/-- A comment, one of the markers around a sheet, or one of the characters that may
have a name after them. -/
def startsSpecial : Text → Bool
  | '/' :: '*' :: _ => true
  | '<' :: '!' :: '-' :: '-' :: _ => true
  | '-' :: '-' :: '>' :: _ => true
  | '@' :: _ => true
  | '#' :: _ => true
  | _ => false

/-- The first characters are those of a name or of a token of one character. -/
structure Ordinary (first : Char) (rest : Text) : Prop where
  blank : isBlank first = false
  quote : isQuote first = false
  number : Token.startsNumber (first :: rest) = false
  special : startsSpecial (first :: rest) = false

/-- The token that is read from the text `first :: rest`, and what is left: one rule
for each reader. -/
inductive Starts : Char → Text → SheetToken × Text → Prop where
  | blank {first : Char} {rest : Text}
      (blank : isBlank first = true) :
      Starts first rest (⟨.blank, first :: rest.takeWhile isBlank⟩, rest.dropWhile isBlank)
  | string {first : Char} {rest : Text}
      (quote : isQuote first = true) :
      Starts first rest
        (⟨.other, first :: (takeString first rest).1⟩, (takeString first rest).2)
  | number {first : Char} {rest : Text}
      (number : Token.startsNumber (first :: rest) = true) :
      Starts first rest (readNumber (first :: rest))
  | comment {body : Text} :
      Starts '/' ('*' :: body)
        (⟨.comment, '/' :: '*' :: (Token.takeComment body).1⟩, (Token.takeComment body).2.2)
  | openMarker {left : Text} :
      Starts '<' ('!' :: '-' :: '-' :: left) (⟨.marker, ['<', '!', '-', '-']⟩, left)
  | closeMarker {left : Text} :
      Starts '-' ('-' :: '>' :: left) (⟨.marker, ['-', '-', '>']⟩, left)
  | atSign {rest : Text} : Starts '@' rest (readAt rest)
  | hash {rest : Text} : Starts '#' rest (readHash rest)
  | name {first : Char} {rest : Text}
      (ordinary : Ordinary first rest)
      (name : startsName (first :: rest) = true) :
      Starts first rest (readName (first :: rest))
  | single {first : Char} {rest : Text}
      (ordinary : Ordinary first rest)
      (noName : startsName (first :: rest) = false) :
      Starts first rest (⟨kindOf first, [first]⟩, rest)

theorem starts_nextOf (first : Char) (rest : Text) : Starts first rest (nextOf first rest) := by
  unfold nextOf
  split
  next blank => exact .blank blank
  next notBlank =>
  split
  next quote => exact .string quote
  next notQuote =>
  split
  next number => exact .number number
  next noNumber =>
  split
  · exact .comment
  · exact .openMarker
  · exact .closeMarker
  · exact .atSign
  · exact .hash
  next noAt noHash noComment noOpen noClose =>
    have ordinary : Ordinary first rest := by
      refine ⟨by simpa using notBlank, by simpa using notQuote, by simpa using noNumber, ?_⟩
      unfold startsSpecial
      split
      next same =>
        simp only [List.cons.injEq] at same
        exact absurd same.2 (noComment _ same.1)
      next same =>
        simp only [List.cons.injEq] at same
        exact absurd same.2 (noOpen _ same.1)
      next same =>
        simp only [List.cons.injEq] at same
        exact absurd same.2 (noClose _ same.1)
      next same =>
        simp only [List.cons.injEq] at same
        exact absurd same.1 noAt
      next same =>
        simp only [List.cons.injEq] at same
        exact absurd same.1 noHash
      next => rfl
    split
    next name => exact .name ordinary name
    next noName => exact .single ordinary (by simpa using noName)

theorem nextOf_of_ordinary
    {first : Char}
    {rest : Text}
    (ordinary : Ordinary first rest) :
    nextOf first rest =
      if startsName (first :: rest) then readName (first :: rest)
      else (⟨kindOf first, [first]⟩, rest) := by
  have special := ordinary.special
  unfold nextOf
  rw [ordinary.blank, ordinary.quote, ordinary.number]
  simp only [Bool.false_eq_true, if_false]
  split
  · exact absurd special (by simp [startsSpecial])
  · exact absurd special (by simp [startsSpecial])
  · exact absurd special (by simp [startsSpecial])
  · exact absurd special (by simp [startsSpecial])
  · exact absurd special (by simp [startsSpecial])
  · rfl

/-- The reader that is chosen is the one whose rule applies. -/
theorem Starts.nextOf_eq
    {first : Char}
    {rest : Text}
    {result : SheetToken × Text}
    (starts : Starts first rest result) :
    nextOf first rest = result := by
  cases starts with
  | blank blank => simp [nextOf, blank]
  | string quote =>
      have notBlank : isBlank first = false := by
        simp only [isQuote, Bool.or_eq_true, beq_iff_eq] at quote
        rcases quote with rfl | rfl <;> rfl
      simp [nextOf, notBlank, quote]
  | number number =>
      have plain := Token.Plain.of_startsNumber number
      simp [nextOf, plain.blank, plain.quote, number]
  | comment => rfl
  | openMarker => rfl
  | closeMarker => rfl
  | atSign => rfl
  | hash => rfl
  | name ordinary name => rw [nextOf_of_ordinary ordinary, if_pos name]
  | single ordinary noName =>
      rw [nextOf_of_ordinary ordinary, if_neg (by simpa using noName)]

/-! ## All tokens -/

@[simp]
theorem scan_nil : scan [] = [] := by
  rw [scan]

theorem scan_of_starts
    {first : Char}
    {rest left : Text}
    {token : SheetToken}
    (starts : Starts first rest (token, left)) :
    scan (first :: rest) = token :: scan left := by
  rw [scan, starts.nextOf_eq]

/-- The texts of tokens, one after another. -/
def concat (tokens : List SheetToken) : Text := tokens.flatMap raw

@[simp]
theorem concat_nil : concat [] = [] := rfl

@[simp]
theorem concat_cons (token : SheetToken) (tokens : List SheetToken) :
    concat (token :: tokens) = token.raw ++ concat tokens := rfl

@[simp]
theorem concat_append (left right : List SheetToken) :
    concat (left ++ right) = concat left ++ concat right := List.flatMap_append

theorem concat_scan (source : Text) : concat (scan source) = source := by
  fun_induction scan source with
  | case1 => rfl
  | case2 first rest inductionHypothesis =>
      rw [concat_cons, inductionHypothesis]
      exact nextOf_append first rest

/-- What holds of every token that is read holds of every token of a text. -/
theorem forall_mem_scan
    {holds : SheetToken → Prop}
    (step : ∀ first rest, holds (nextOf first rest).1)
    (source : Text) :
    ∀ token ∈ scan source, holds token := by
  fun_induction scan source with
  | case1 => simp
  | case2 first rest inductionHypothesis =>
      intro token member
      rcases List.mem_cons.mp member with rfl | member
      · exact step first rest
      · exact inductionHypothesis token member

/-! ## Kinds and texts -/

/-- A token of a kind with a mark is that mark, and a token that opens a bracket ends
with it. -/
structure IsMarked (token : SheetToken) : Prop where
  mark : ∀ c, token.kind.mark? = some c → token.raw = [c]
  opening : ∀ bracket, token.kind = .opening bracket →
    ∃ name, token.raw = name ++ [bracket.openingChar]

theorem isMarked_of_plain
    {token : SheetToken}
    (plain : token.kind.mark? = none)
    (noOpening : ∀ bracket, token.kind ≠ .opening bracket) :
    token.IsMarked where
  mark := by
    intro c marked
    rw [plain] at marked
    cases marked
  opening := by
    intro bracket opening
    exact absurd opening (noOpening bracket)

theorem kind_readNumber (text : Text) : (readNumber text).1.kind = .other := by
  simp only [readNumber]
  split
  · rfl
  · split <;> rfl

theorem isMarked_readNumber (text : Text) : (readNumber text).1.IsMarked := by
  apply isMarked_of_plain
  · rw [kind_readNumber]
    rfl
  · intro bracket
    rw [kind_readNumber]
    exact SheetTokenKind.noConfusion

theorem isMarked_readName (text : Text) : (readName text).1.IsMarked := by
  simp only [readName]
  split
  next rest _ =>
    -- Every call opens a round bracket with its last character.
    have call : (⟨.opening .round, (Sheet.takeName text).2.1 ++ ['(']⟩ : SheetToken).IsMarked := by
      refine ⟨?_, ?_⟩
      · intro c marked
        cases marked
      · intro bracket same
        cases same
        exact ⟨(Sheet.takeName text).2.1, rfl⟩
    split
    · split
      · exact isMarked_of_plain rfl fun _ => SheetTokenKind.noConfusion
      · exact call
    · exact call
  next => exact isMarked_of_plain rfl fun _ => SheetTokenKind.noConfusion

theorem isMarked_kindOf (c : Char) : (⟨kindOf c, [c]⟩ : SheetToken).IsMarked := by
  by_cases structural : c ∈ [':', ';', '(', '[', '\x7b', ')', ']', '\x7d']
  · simp only [List.mem_cons, List.not_mem_nil, or_false] at structural
    rcases structural with rfl | rfl | rfl | rfl | rfl | rfl | rfl | rfl
    all_goals
      refine ⟨?_, ?_⟩
      · intro c marked
        cases marked <;> rfl
      · intro bracket same
        cases same <;> exact ⟨[], rfl⟩
  · have other : kindOf c = .other := by
      simp only [List.mem_cons, List.not_mem_nil, or_false, not_or] at structural
      simp [kindOf, structural]
    rw [other]
    exact isMarked_of_plain rfl nofun

theorem isMarked_nextOf (first : Char) (rest : Text) : (nextOf first rest).1.IsMarked := by
  have starts := starts_nextOf first rest
  generalize nextOf first rest = result at starts ⊢
  cases starts with
  | blank => exact isMarked_of_plain rfl nofun
  | string => exact isMarked_of_plain rfl nofun
  | number => exact isMarked_readNumber _
  | comment => exact isMarked_of_plain rfl nofun
  | openMarker => exact isMarked_of_plain rfl nofun
  | closeMarker => exact isMarked_of_plain rfl nofun
  | atSign =>
      unfold readAt
      split <;> exact isMarked_of_plain rfl nofun
  | hash =>
      unfold readHash
      split <;> exact isMarked_of_plain rfl nofun
  | name => exact isMarked_readName _
  | single => exact isMarked_kindOf first

theorem isMarked_of_mem_scan {source : Text} : ∀ token ∈ scan source, token.IsMarked :=
  forall_mem_scan isMarked_nextOf source

end SheetToken

end CssRescale
