import CssRescale.Proofs.Sheet.Enclosed
import CssRescale.Proofs.Sheet.Outline

/-!
Contract: grouping follows a grammar, in which tokens of the same outline stand for each
other.

The components of tokens are given by rules, one for each kind of component: in them a
block is a bracket that opens, components, and the bracket that closes. Grouping the
tokens of a sheet gives the one list of components that the rules allow. So a part of
the tokens may be exchanged for tokens of the same outline: they have components of
their own, with the same semicolons and curly blocks.

Owns:
- the rules of components, and that grouping follows them;
- the semicolons and curly blocks among components;
- the components of tokens with a given outline.
-/

set_option autoImplicit false

namespace CssRescale

open SheetToken (outline concat)

namespace Component

/-! ## The rules -/

/-- The tokens are those of the components. They stand in a block with the bracket given,
if any; only a block behind which the tokens end (`ends`) may be left open. -/
inductive Groups : Option Bracket → Bool → List SheetToken → List Component → Prop where
  | nil {inside : Option Bracket} {ends : Bool} : Groups inside ends [] []
  | single {inside : Option Bracket} {ends : Bool} {token : SheetToken}
      {tokens : List SheetToken} {components : List Component}
      (noOpening : ∀ bracket, token.kind ≠ .opening bracket)
      (noClosing : ∀ bracket ∈ inside, token.kind ≠ .closing bracket)
      (rest : Groups inside ends tokens components) :
      Groups inside ends (token :: tokens) (.single token :: components)
  | block {inside : Option Bracket} {ends : Bool} {bracket : Bracket}
      {opening closing : SheetToken} {contentTokens tokens : List SheetToken}
      {contents components : List Component}
      (isOpening : opening.kind = .opening bracket)
      (isClosing : closing.kind = .closing bracket)
      (inner : Groups (some bracket) false contentTokens contents)
      (rest : Groups inside ends tokens components) :
      Groups inside ends (opening :: (contentTokens ++ closing :: tokens))
        (.block bracket opening.raw contents closing.raw :: components)
  | unclosed {inside : Option Bracket} {bracket : Bracket} {opening : SheetToken}
      {tokens : List SheetToken} {contents : List Component}
      (isOpening : opening.kind = .opening bracket)
      (inner : Groups (some bracket) true tokens contents) :
      Groups inside true (opening :: tokens) [.block bracket opening.raw contents []]

variable
  {inside : Option Bracket}
  {ends : Bool}
  {tokens : List SheetToken}
  {components : List Component}

theorem Groups.append
    {others : List SheetToken}
    {more : List Component}
    (groups : Groups inside false tokens components)
    (following : Groups inside ends others more) :
    Groups inside ends (tokens ++ others) (components ++ more) := by
  generalize closed : false = before at groups
  induction groups with
  | nil => exact following
  | single noOpening noClosing _ inductionHypothesis =>
      exact .single noOpening noClosing (inductionHypothesis following closed)
  | block isOpening isClosing inner _ _ inductionHypothesis =>
      rw [List.cons_append, List.append_assoc]
      exact .block isOpening isClosing inner (inductionHypothesis following closed)
  | unclosed => cases closed

theorem Groups.textEach_eq (groups : Groups inside ends tokens components) :
    textEach components = concat tokens := by
  induction groups with
  | nil => rfl
  | single _ _ _ inductionHypothesis =>
      rw [textEach, inductionHypothesis]
      rfl
  | block _ _ _ _ contents inductionHypothesis =>
      rw [textEach, text, inductionHypothesis, contents, SheetToken.concat_cons,
        SheetToken.concat_append, SheetToken.concat_cons, List.append_assoc, List.append_assoc]
  | unclosed _ _ inductionHypothesis =>
      rw [textEach, text, inductionHypothesis, SheetToken.concat_cons, textEach]
      simp

end Component

open Component (Groups)

/-! ## Grouping follows the rules -/

namespace Grouping

/-- The bracket of the innermost open block. -/
def innermost (grouping : Grouping) : Option Bracket :=
  grouping.enclosing.head?.map OpenBlock.bracket

variable
  {ends : Bool}
  {tokens : List SheetToken}
  {components : List Component}

theorem take_of_opening
    {token : SheetToken}
    {bracket : Bracket}
    (isOpening : token.kind = .opening bracket)
    (grouping : Grouping) :
    grouping.take token = grouping.enter bracket token.raw := by
  rw [take, isOpening]

theorem take_single
    {token : SheetToken}
    {grouping : Grouping}
    (noOpening : ∀ bracket, token.kind ≠ .opening bracket)
    (noClosing : ∀ bracket ∈ grouping.innermost, token.kind ≠ .closing bracket) :
    grouping.take token = grouping.push (.single token) := by
  unfold take
  split
  next bracket opening => exact absurd opening (noOpening bracket)
  next bracket closing =>
    apply leave_of_isNotIn
    rintro parent member rfl
    apply noClosing parent.bracket _ closing
    exact Option.mem_map_of_mem OpenBlock.bracket member
  next => rfl

theorem take_closing
    {token : SheetToken}
    {bracket : Bracket}
    (isClosing : token.kind = .closing bracket)
    (opening : Text)
    (contents : List Component)
    (grouping : Grouping) :
    ((grouping.enter bracket opening).pushEach contents).take token =
      grouping.pushEach [.block bracket opening contents token.raw] := by
  rw [take, isClosing]
  simp [leave, enter, pushEach]

/-- Tokens are grouped as the rules say, on top of any open block. -/
theorem finish_foldl_take
    {grouping : Grouping}
    (groups : Groups grouping.innermost ends tokens components)
    (following : List SheetToken)
    (last : ends = true → following = []) :
    ((tokens ++ following).foldl take grouping).finish =
      (following.foldl take (grouping.pushEach components)).finish := by
  generalize within : grouping.innermost = inside at groups
  induction groups generalizing grouping following with
  | nil => rw [List.nil_append, pushEach_nil]
  | @single _ _ token tokens components noOpening noClosing _ inductionHypothesis =>
      have others := @inductionHypothesis (grouping.pushEach [.single token]) following last within
      rw [← within] at noClosing
      rw [pushEach_pushEach] at others
      rw [List.cons_append, List.foldl_cons, take_single noOpening noClosing]
      exact others
  | @block _ _ bracket opening closing contentTokens tokens contents components isOpening isClosing
      _ _ contentsHypothesis inductionHypothesis =>
      have inner := @contentsHypothesis (grouping.enter bracket opening.raw)
        (closing :: (tokens ++ following)) nofun rfl
      have others := @inductionHypothesis
        (grouping.pushEach [.block bracket opening.raw contents closing.raw]) following last within
      rw [List.cons_append, List.append_assoc, List.cons_append, List.foldl_cons,
        take_of_opening isOpening, inner, List.foldl_cons, take_closing isClosing, others,
        pushEach_pushEach]
      rfl
  | @unclosed _ bracket opening tokens contents isOpening _ inductionHypothesis =>
      have nothing := last rfl
      subst nothing
      have inner := @inductionHypothesis (grouping.enter bracket opening.raw) [] (fun _ => rfl) rfl
      rw [List.cons_append, List.foldl_cons, take_of_opening isOpening, inner]
      rfl

end Grouping

theorem SheetTokenKind.isPlain_of_structural?
    {kind : SheetTokenKind}
    (plain : kind.structural? = none) :
    kind.isPlain = true := by
  unfold SheetTokenKind.structural? at plain
  split at plain
  next isPlain => exact isPlain
  next => cases plain

namespace Component

variable
  {inside : Option Bracket}
  {ends : Bool}
  {tokens : List SheetToken}
  {components : List Component}

/-- A block in front, up to its closing bracket. -/
theorem Groups.behindBlock
    {bracket : Bracket}
    {opening closing : SheetToken}
    {contentTokens : List SheetToken}
    {contents : List Component}
    (isOpening : opening.kind = .opening bracket)
    (isClosing : closing.kind = .closing bracket)
    (inner : Groups (some bracket) false contentTokens contents)
    (groups : Groups inside ends tokens components) :
    Groups inside ends (opening :: (contentTokens ++ [closing]) ++ tokens)
      (.block bracket opening.raw contents closing.raw :: components) := by
  have whole := Groups.block isOpening isClosing inner groups
  rwa [List.append_cons, ← List.cons_append] at whole

/-- The tokens have components, up to their end or up to a bracket that closes the block
they are in. -/
def HaveGroups (inside : Option Bracket) (tokens : List SheetToken) : Prop :=
  (∃ components, Groups inside true tokens components) ∨
    ∃ bracket ∈ inside, ∃ contentTokens closing behind contents,
      tokens = contentTokens ++ closing :: behind ∧ closing.kind = .closing bracket ∧
        Groups inside false contentTokens contents

/-- One component in front. -/
theorem HaveGroups.cons
    {front : List SheetToken}
    {component : Component}
    (found : HaveGroups inside tokens)
    (groups : ∀ {ends tokens components}, Groups inside ends tokens components →
      Groups inside ends (front ++ tokens) (component :: components)) :
    HaveGroups inside (front ++ tokens) := by
  rcases found with ⟨components, rest⟩ | ⟨bracket, member, more, closing, behind, components, rfl,
    isClosing, rest⟩
  · exact Or.inl ⟨_, groups rest⟩
  · exact Or.inr ⟨bracket, member, front ++ more, closing, behind, _, by simp, isClosing,
      groups rest⟩

theorem haveGroups (tokens : List SheetToken) (inside : Option Bracket) :
    HaveGroups inside tokens := by
  -- On the length: what is behind a block is found only with its contents.
  induction total : tokens.length using Nat.strongRecOn generalizing tokens inside with
  | _ size inductionHypothesis =>
      cases tokens with
      | nil => exact Or.inl ⟨[], .nil⟩
      | cons token tokens =>
          have shorter : tokens.length < size := by
            rw [← total]
            exact Nat.lt_succ_self _
          by_cases closing : ∃ bracket ∈ inside, token.kind = .closing bracket
          · obtain ⟨bracket, member, isClosing⟩ := closing
            exact Or.inr ⟨bracket, member, [], token, tokens, [], rfl, isClosing, .nil⟩
          by_cases opening : ∃ bracket, token.kind = .opening bracket
          · obtain ⟨bracket, isOpening⟩ := opening
            rcases inductionHypothesis _ shorter tokens (some bracket) rfl with
              ⟨contents, inner⟩ | ⟨_, member, contentTokens, closing, behind, contents, rfl,
                isClosing, inner⟩
            · exact Or.inl ⟨_, .unclosed isOpening inner⟩
            · cases member
              have fewer : behind.length < size := by
                rw [List.length_append, List.length_cons] at shorter
                omega
              rw [List.append_cons, ← List.cons_append]
              exact (inductionHypothesis _ fewer behind inside rfl).cons
                (.behindBlock isOpening isClosing inner)
          · have noOpening : ∀ bracket, token.kind ≠ .opening bracket :=
              fun bracket isOpening => opening ⟨bracket, isOpening⟩
            have noClosing : ∀ bracket ∈ inside, token.kind ≠ .closing bracket :=
              fun bracket member isClosing => closing ⟨bracket, member, isClosing⟩
            exact @HaveGroups.cons _ _ [token] _ (inductionHypothesis _ shorter tokens inside rfl)
              (.single noOpening noClosing)

theorem Groups.ofTokens_eq (groups : Groups none true tokens components) :
    ofTokens tokens = components := by
  have grouped := @Grouping.finish_foldl_take _ _ _ Grouping.empty groups [] fun _ => rfl
  rw [List.append_nil] at grouped
  exact grouped

/-- The components of tokens are those that the rules allow. -/
theorem groups_ofTokens (tokens : List SheetToken) : Groups none true tokens (ofTokens tokens) := by
  rcases haveGroups tokens none with ⟨components, groups⟩ | ⟨_, member, _⟩
  · rwa [groups.ofTokens_eq]
  · cases member

/-! ## Semicolons and curly blocks -/

/-- The semicolons and curly blocks among components: true for a semicolon. -/
def turns (components : List Component) : List Bool :=
  (components.filter isStructural).map isSemicolon

theorem turns_append (left right : List Component) :
    turns (left ++ right) = turns left ++ turns right := by
  simp [turns]

theorem turns_cons (component : Component) (components : List Component) :
    turns (component :: components) = turns [component] ++ turns components :=
  turns_append [component] components

/-- A token is a semicolon by its kind. -/
theorem turns_single_congr {token other : SheetToken} (same : other.kind = token.kind) :
    turns [.single other] = turns [.single token] := by
  by_cases semicolon : token.kind = .semicolon
  · simp [turns, isStructural, isSemicolon, kind?, same, semicolon]
  · simp [turns, isStructural, isSemicolon, isCurlyBlock, kind?, same, semicolon]

/-- A block is a curly one by its bracket. -/
theorem turns_block_congr
    (bracket : Bracket)
    (opening otherOpening : Text)
    (contents otherContents : List Component)
    (closing otherClosing : Text) :
    turns [.block bracket opening contents closing] =
      turns [.block bracket otherOpening otherContents otherClosing] := by
  cases bracket <;> rfl

theorem turns_cons_of_isPlain
    {token : SheetToken}
    (plain : token.kind.isPlain = true)
    (components : List Component) :
    turns (.single token :: components) = turns components := by
  have noSemicolon : token.kind ≠ .semicolon := by
    intro semicolon
    rw [semicolon] at plain
    cases plain
  simp [turns, isStructural_single_iff.mpr noSemicolon]

/-! ## Exchange of tokens with the same outline -/

/-- Tokens without structure may stand before any others. -/
theorem Groups.exists_of_isPlain
    {front : List SheetToken}
    (plain : ∀ token ∈ front, token.kind.structural? = none)
    (groups : Groups inside ends tokens components) :
    ∃ more, Groups inside ends (front ++ tokens) more ∧ turns more = turns components := by
  induction front with
  | nil => exact ⟨components, groups, rfl⟩
  | cons token front inductionHypothesis =>
      have isPlain := SheetTokenKind.isPlain_of_structural? (plain token List.mem_cons_self)
      obtain ⟨more, others, same⟩ := inductionHypothesis fun other member =>
        plain other (List.mem_cons_of_mem token member)
      refine ⟨.single token :: more, .single ?_ ?_ others,
        (turns_cons_of_isPlain isPlain more).trans same⟩
      · intro bracket opening
        rw [opening] at isPlain
        cases isPlain
      · intro bracket _ closing
        rw [closing] at isPlain
        cases isPlain

/-- The first token with structure, and the tokens around it. -/
theorem exists_of_outline_eq_cons
    {kind : SheetTokenKind}
    {kinds : List SheetTokenKind}
    (same : outline tokens = kind :: kinds) :
    ∃ front token behind, tokens = front ++ token :: behind ∧
      (∀ other ∈ front, other.kind.structural? = none) ∧ token.kind = kind ∧
      outline behind = kinds := by
  obtain ⟨front, token, behind, rfl, plain, structural, others⟩ :=
    List.filterMap_eq_cons_iff.mp same
  refine ⟨front, token, behind, rfl, plain, ?_, others⟩
  unfold SheetTokenKind.structural? at structural
  split at structural
  · cases structural
  · exact Option.some.inj structural

theorem outline_cons_of_structural
    {token : SheetToken}
    (structural : token.kind.isPlain = false)
    (tokens : List SheetToken) :
    outline (token :: tokens) = token.kind :: outline tokens := by
  simp [outline, SheetTokenKind.structural?, structural]

/-- Tokens with the same outline have components of their own, with the same semicolons
and curly blocks. -/
theorem Groups.exists_of_outline_eq
    {others : List SheetToken}
    (groups : Groups inside ends tokens components)
    (same : outline others = outline tokens) :
    ∃ more, Groups inside ends others more ∧ turns more = turns components := by
  induction groups generalizing others with
  | nil =>
      have plain := List.filterMap_eq_nil_iff.mp same
      rw [← List.append_nil others]
      exact Groups.nil.exists_of_isPlain plain
  | @single _ _ token tokens components noOpening noClosing _ inductionHypothesis =>
      cases plain : token.kind.isPlain with
      | true =>
          rw [SheetToken.outline_cons, SheetToken.outline_of_isPlain plain] at same
          rw [turns_cons_of_isPlain plain]
          exact inductionHypothesis same
      | false =>
          rw [outline_cons_of_structural plain] at same
          obtain ⟨front, other, behind, rfl, frontPlain, kind, rest⟩ :=
            exists_of_outline_eq_cons same
          obtain ⟨more, groups, sameTurns⟩ := inductionHypothesis rest
          rw [← kind] at noOpening noClosing
          obtain ⟨whole, wholeGroups, wholeTurns⟩ :=
            (Groups.single noOpening noClosing groups).exists_of_isPlain frontPlain
          refine ⟨whole, wholeGroups, wholeTurns.trans ?_⟩
          rw [turns_cons, turns_single_congr kind, sameTurns, ← turns_cons]
  | @block _ _ bracket opening closing contentTokens tokens contents components isOpening isClosing
      _ _ contentsHypothesis inductionHypothesis =>
      rw [outline_cons_of_structural (by rw [isOpening]; rfl), SheetToken.outline_append,
        outline_cons_of_structural (by rw [isClosing]; rfl)] at same
      obtain ⟨front, other, behind, rfl, frontPlain, kind, rest⟩ := exists_of_outline_eq_cons same
      obtain ⟨otherContents, left, rfl, contentsSame, leftSame⟩ :=
        List.filterMap_eq_append_iff.mp rest
      obtain ⟨last, otherClosing, left, rfl, lastPlain, closingKind, leftSame⟩ :=
        exists_of_outline_eq_cons leftSame
      -- What is plain before the closing bracket belongs to the block.
      have contentsSame : outline (otherContents ++ last) = outline contentTokens := by
        have nothing : outline last = [] := List.filterMap_eq_nil_iff.mpr lastPlain
        rw [SheetToken.outline_append, nothing, List.append_nil]
        exact contentsSame
      obtain ⟨newContents, inner, _⟩ := contentsHypothesis contentsSame
      obtain ⟨more, groups, sameTurns⟩ := inductionHypothesis leftSame
      obtain ⟨whole, wholeGroups, wholeTurns⟩ :=
        (Groups.block (kind.trans isOpening) (closingKind.trans isClosing) inner
          groups).exists_of_isPlain frontPlain
      rw [List.append_assoc] at wholeGroups
      refine ⟨whole, wholeGroups, wholeTurns.trans ?_⟩
      rw [turns_cons, turns_cons _ components, sameTurns]
      exact congrArg (· ++ _) (turns_block_congr ..)
  | @unclosed around bracket opening tokens contents isOpening _ inductionHypothesis =>
      rw [outline_cons_of_structural (by rw [isOpening]; rfl)] at same
      obtain ⟨front, other, behind, rfl, frontPlain, kind, rest⟩ := exists_of_outline_eq_cons same
      obtain ⟨newContents, inner, _⟩ := inductionHypothesis rest
      obtain ⟨whole, wholeGroups, wholeTurns⟩ :=
        (@Groups.unclosed around _ _ _ _ (kind.trans isOpening) inner).exists_of_isPlain frontPlain
      exact ⟨whole, wholeGroups, wholeTurns.trans (turns_block_congr ..)⟩

end Component

end CssRescale
