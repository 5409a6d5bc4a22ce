import CssRescale.Proofs.Sheet.Calm
import CssRescale.Sheet.Segment

/-!
Contract: a quiet text has the same components wherever it stands.

Tokens are grouped on top of an open block as they are on their own, as long as none
of them closes that block. The tokens of a quiet text close only round brackets, and
leave none open. So in a sheet, or in a curly block, its components are those of the
text alone. Of a calm text neither a semicolon nor a curly block is among them.

Owns:
- grouping on top of other components;
- the components of quiet and of calm texts.
-/

set_option autoImplicit false

namespace CssRescale

open SheetToken (Shifts Nest)

/-- Does the component structure the contents of a rule? -/
def Component.isStructural (component : Component) : Bool :=
  component.isSemicolon || component.isCurlyBlock

theorem Component.isStructural_single_iff {token : SheetToken} :
    (single token).isStructural = false ↔ token.kind ≠ .semicolon := by
  simp [isStructural, isSemicolon, isCurlyBlock, kind?]

theorem Component.isCurlyBlock_of_isStructural
    {component : Component}
    (plain : component.isStructural = false) :
    component.isCurlyBlock = false := (Bool.or_eq_false_iff.mp plain).2

namespace Grouping

/-! ## Grouping on top of an open block -/

def pushEach (components : List Component) (grouping : Grouping) : Grouping :=
  { grouping with current := grouping.current ++ components }

theorem pushEach_nil (grouping : Grouping) : grouping.pushEach [] = grouping := by
  simp [pushEach]

theorem pushEach_pushEach (first second : List Component) (grouping : Grouping) :
    (grouping.pushEach first).pushEach second = grouping.pushEach (first ++ second) := by
  simp [pushEach]

def ontoBlocks (outer : Grouping) : List Component → List OpenBlock → Grouping
  | current, [] => outer.pushEach current
  | current, parent :: rest =>
      ((outer.ontoBlocks parent.before rest).enter parent.bracket parent.opening).pushEach current

/-- Components under construction on top of others. -/
def onto (outer inner : Grouping) : Grouping := outer.ontoBlocks inner.current inner.enclosing

/-- The innermost open block, if there is one, has another bracket. -/
def IsNotIn (bracket : Bracket) (grouping : Grouping) : Prop :=
  ∀ parent ∈ grouping.enclosing.head?, parent.bracket ≠ bracket

theorem leave_of_isNotIn
    {bracket : Bracket}
    {grouping : Grouping}
    (notIn : grouping.IsNotIn bracket)
    (token : SheetToken) :
    grouping.leave bracket token = grouping.push (.single token) := by
  unfold leave
  split
  · rfl
  next parent rest nested =>
    have other : parent.bracket ≠ bracket := notIn parent (by rw [nested]; rfl)
    rw [if_neg other]

theorem take_of_isBracket
    {token : SheetToken}
    (noBracket : token.kind.isBracket = false)
    (grouping : Grouping) :
    grouping.take token = grouping.push (.single token) := by
  unfold take
  split
  next bracket opening =>
    rw [opening] at noBracket
    cases noBracket
  next bracket closing =>
    rw [closing] at noBracket
    cases noBracket
  next => rfl

section Onto

variable {outer : Grouping}

theorem push_onto (component : Component) (inner : Grouping) :
    (outer.onto inner).push component = outer.onto (inner.push component) := by
  obtain ⟨current, enclosing⟩ := inner
  cases enclosing with
  | nil => simp [onto, ontoBlocks, push, pushEach]
  | cons parent rest => simp [onto, ontoBlocks, push, pushEach]

theorem leave_onto
    {bracket : Bracket}
    (notIn : outer.IsNotIn bracket)
    (token : SheetToken)
    (inner : Grouping) :
    (outer.onto inner).leave bracket token = outer.onto (inner.leave bracket token) := by
  obtain ⟨current, enclosing⟩ := inner
  cases enclosing with
  | nil =>
      have alone : IsNotIn bracket ⟨current, []⟩ := nofun
      have onOuter : (outer.onto ⟨current, []⟩).IsNotIn bracket := notIn
      rw [leave_of_isNotIn alone, leave_of_isNotIn onOuter, push_onto]
  | cons parent rest =>
      by_cases matching : parent.bracket = bracket
      · have block := @push_onto outer
          (.block bracket parent.opening current token.raw) ⟨parent.before, rest⟩
        simp only [leave, onto, ontoBlocks, enter, pushEach, if_pos matching, List.nil_append]
        exact block
      · have notInner : IsNotIn bracket ⟨current, parent :: rest⟩ := by
          intro other member
          cases member
          exact matching
        have onOuter : (outer.onto ⟨current, parent :: rest⟩).IsNotIn bracket := by
          intro other member
          cases member
          exact matching
        rw [leave_of_isNotIn notInner, leave_of_isNotIn onOuter, push_onto]

/-- A token is taken on top of an open block that it does not close as it is alone. -/
theorem take_onto
    {token : SheetToken}
    (stays : ∀ bracket, token.kind = .closing bracket → outer.IsNotIn bracket)
    (inner : Grouping) :
    (outer.onto inner).take token = outer.onto (inner.take token) := by
  unfold take
  split
  next bracket _ => simp [onto, ontoBlocks, enter, pushEach]
  next bracket closing => exact leave_onto (stays bracket closing) token inner
  next => exact push_onto _ _

theorem foldl_take_onto
    {tokens : List SheetToken}
    (stays : ∀ token ∈ tokens, ∀ bracket, token.kind = .closing bracket → outer.IsNotIn bracket)
    (inner : Grouping) :
    tokens.foldl take (outer.onto inner) = outer.onto (tokens.foldl take inner) := by
  induction tokens generalizing inner with
  | nil => rfl
  | cons token rest inductionHypothesis =>
      rw [List.foldl_cons, List.foldl_cons, take_onto (stays token List.mem_cons_self)]
      exact inductionHypothesis (fun other member => stays other (List.mem_cons_of_mem _ member)) _

end Onto

/-! ## Grouping the tokens of a quiet text -/

/-- Every component under construction is allowed, and at most the given number of
blocks is open, all of them with round brackets. -/
structure IsRound (allowed : Component → Prop) (depth : Nat) (grouping : Grouping) : Prop where
  current : ∀ component ∈ grouping.current, allowed component
  round : ∀ parent ∈ grouping.enclosing, parent.bracket = .round
  before : ∀ parent ∈ grouping.enclosing, ∀ component ∈ parent.before, allowed component
  bound : grouping.enclosing.length ≤ depth

theorem isRound_empty (allowed : Component → Prop) : empty.IsRound allowed 0 where
  current := nofun
  round := nofun
  before := nofun
  bound := Nat.le_refl 0

namespace IsRound

variable {allowed : Component → Prop} {depth after : Nat} {grouping : Grouping}

theorem push
    {component : Component}
    (isRound : grouping.IsRound allowed depth)
    (here : allowed component)
    (deeper : grouping.enclosing.length ≤ after) :
    (grouping.push component).IsRound allowed after where
  current := by
    intro other member
    rcases List.mem_append.mp member with member | member
    · exact isRound.current other member
    · rw [List.mem_singleton.mp member]
      exact here
  round := isRound.round
  before := isRound.before
  bound := deeper

theorem enter (isRound : grouping.IsRound allowed depth) (opening : Text) :
    (grouping.enter .round opening).IsRound allowed (depth + 1) where
  current := nofun
  round := by
    intro parent member
    rcases List.mem_cons.mp member with rfl | member
    · rfl
    · exact isRound.round parent member
  before := by
    intro parent member
    rcases List.mem_cons.mp member with rfl | member
    · exact isRound.current
    · exact isRound.before parent member
  bound := Nat.succ_le_succ isRound.bound

variable
  (blocks : ∀ opening contents closing, allowed (.block .round opening contents closing))

include blocks

theorem leave
    {token : SheetToken}
    (isRound : grouping.IsRound allowed (depth + 1))
    (here : allowed (.single token)) :
    (grouping.leave .round token).IsRound allowed depth := by
  obtain ⟨current, enclosing⟩ := grouping
  cases enclosing with
  | nil => exact isRound.push here (Nat.zero_le depth)
  | cons parent rest =>
      have matching : parent.bracket = .round := isRound.round parent List.mem_cons_self
      simp only [Grouping.leave, if_pos matching]
      refine ⟨?_, ?_, ?_, Nat.le_of_succ_le_succ isRound.bound⟩
      · intro component member
        rcases List.mem_append.mp member with member | member
        · exact isRound.before parent List.mem_cons_self component member
        · rw [List.mem_singleton.mp member]
          exact blocks _ _ _
      · exact fun other member => isRound.round other (List.mem_cons_of_mem parent member)
      · exact fun other member => isRound.before other (List.mem_cons_of_mem parent member)

theorem take
    {token : SheetToken}
    (isRound : grouping.IsRound allowed depth)
    (shifts : Shifts depth token after)
    (here : allowed (.single token)) :
    (grouping.take token).IsRound allowed after := by
  cases shifts with
  | opening opening =>
      rw [Grouping.take, opening]
      exact isRound.enter token.raw
  | closing closing =>
      rw [Grouping.take, closing]
      exact isRound.leave blocks here
  | plain noBracket deeper =>
      rw [take_of_isBracket noBracket]
      exact isRound.push here (Nat.le_trans isRound.bound deeper)

theorem foldl_take
    {tokens : List SheetToken}
    (isRound : grouping.IsRound allowed depth)
    (nest : Nest depth tokens)
    (tokensAllowed : ∀ token ∈ tokens, allowed (.single token)) :
    (tokens.foldl Grouping.take grouping).IsRound allowed 0 := by
  induction nest generalizing grouping with
  | nil => exact isRound
  | cons shifts _ inductionHypothesis =>
      apply inductionHypothesis
      · exact isRound.take blocks shifts (tokensAllowed _ List.mem_cons_self)
      · exact fun other member => tokensAllowed other (List.mem_cons_of_mem _ member)

end IsRound

theorem isNotIn_of_nest
    {depth : Nat}
    {tokens : List SheetToken}
    {outer : Grouping}
    (nest : Nest depth tokens)
    (notRound : outer.IsNotIn .round) :
    ∀ token ∈ tokens, ∀ bracket, token.kind = .closing bracket → outer.IsNotIn bracket := by
  induction nest with
  | nil => nofun
  | cons shifts _ inductionHypothesis =>
      intro token member bracket closing
      rcases List.mem_cons.mp member with rfl | member
      · cases shifts with
        | opening opening => exact absurd (opening.symm.trans closing) nofun
        | closing round =>
            cases round.symm.trans closing
            exact notRound
        | plain noBracket =>
            rw [closing] at noBracket
            cases noBracket
      · exact inductionHypothesis token member bracket closing

section QuietText

variable {text : Text} (isQuiet : Text.IsQuiet 0 text)

include isQuiet

theorem foldl_take_empty_scan :
    (SheetToken.scan text).foldl take empty = ⟨Component.ofText text, []⟩ := by
  have isRound := (isRound_empty fun _ => True).foldl_take (fun _ _ _ => True.intro)
    (SheetToken.scan_quiet isQuiet).1 (fun _ _ => True.intro)
  have bound := isRound.bound
  have components : ((SheetToken.scan text).foldl take empty).finish = Component.ofText text := rfl
  generalize (SheetToken.scan text).foldl take empty = grouping at bound components
  obtain ⟨current, enclosing⟩ := grouping
  have closed : enclosing = [] := List.eq_nil_of_length_eq_zero (Nat.le_zero.mp bound)
  subst closed
  rw [← components]
  rfl

/-- If the first token of a quiet text is no bracket, it is the first component. -/
theorem exists_ofText_eq_cons
    {token : SheetToken}
    {tokens : List SheetToken}
    (scanned : SheetToken.scan text = token :: tokens)
    (noBracket : token.kind.isBracket = false) :
    ∃ more, Component.ofText text = .single token :: more := by
  have whole := foldl_take_empty_scan isQuiet
  rw [scanned, List.foldl_cons, take_of_isBracket noBracket] at whole
  have outermost : ∀ bracket, IsNotIn bracket ⟨[.single token], []⟩ := fun _ => nofun
  have onFirst := @foldl_take_onto _ tokens (fun _ _ bracket _ => outermost bracket) empty
  have joined := onFirst.symm.trans whole
  generalize tokens.foldl take empty = inner at joined
  obtain ⟨current, enclosing⟩ := inner
  cases enclosing with
  | nil => exact ⟨current, (congrArg Grouping.current joined).symm⟩
  | cons parent rest => exact absurd (congrArg Grouping.enclosing joined) (List.cons_ne_nil _ _)

/-- A quiet text that closes all that it opens, taken on top of anything but an open
round bracket, adds its own components. -/
theorem foldl_take_scan
    {outer : Grouping}
    (notRound : outer.IsNotIn .round) :
    (SheetToken.scan text).foldl take outer = outer.pushEach (Component.ofText text) := by
  have onOuter := foldl_take_onto
    (isNotIn_of_nest (SheetToken.scan_quiet isQuiet).1 notRound) empty
  rw [foldl_take_empty_scan isQuiet] at onOuter
  simpa [onto, ontoBlocks, pushEach, empty] using onOuter

end QuietText

/-- No component of a calm text structures a sheet. -/
theorem isStructural_of_mem_ofText
    {text : Text}
    (isCalm : Text.IsCalm 0 text) :
    ∀ component ∈ Component.ofText text, component.isStructural = false := by
  have noSemicolon : ';' ∉ text := fun member => absurd (isCalm.calm ';' member) nofun
  have tokens : ∀ token ∈ SheetToken.scan text,
      (Component.single token).isStructural = false := fun token member =>
    Component.isStructural_single_iff.mpr
      (SheetToken.kind_ne_semicolon_of_mem_scan noSemicolon token member)
  have isRound := (isRound_empty (·.isStructural = false)).foldl_take (fun _ _ _ => rfl)
    (SheetToken.scan_quiet isCalm.isQuiet).1 tokens
  have current := isRound.current
  rwa [foldl_take_empty_scan isCalm.isQuiet] at current

end Grouping

end CssRescale
