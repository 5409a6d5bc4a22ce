import CssRescale.Proofs.Sheet.Kinds
import CssRescale.Sheet.Component

/-!
Contract: grouping tokens into blocks keeps the text and closes every block.

While tokens are taken, the components of the open blocks, from the outermost to the
innermost, are written as the tokens taken so far, and all blocks among them are
closed by their brackets. Only the blocks that are open at the end of the text are
left without a bracket, and nothing stands after them.

Owns:
- the text of components under construction, and of the components of a text;
- well-formed components, whose blocks are closed or run to the end of the text.
-/

set_option autoImplicit false

namespace CssRescale

namespace Component

@[simp]
theorem textEach_append (left right : List Component) :
    textEach (left ++ right) = textEach left ++ textEach right := by
  induction left with
  | nil => rfl
  | cons component rest inductionHypothesis =>
      simp only [List.cons_append, textEach, inductionHypothesis, List.append_assoc]

/-! ## Well-formed components -/

mutual

/-- What holds of a component in front of the text given: a token is written as its
kind says, a block ends with its bracket or else nothing at all stands after it, and
the same holds inside the block. -/
def IsWellFormedBefore (following : Text) : Component → Prop
  | .single token => token.IsMarked
  | .block bracket _ contents closing =>
      (closing = [bracket.closingChar] ∨ closing ++ following = [])
        ∧ AreWellFormedBefore (closing ++ following) contents

def AreWellFormedBefore (following : Text) : List Component → Prop
  | [] => True
  | component :: rest =>
      component.IsWellFormedBefore (textEach rest ++ following) ∧ AreWellFormedBefore following rest

end

theorem areWellFormedBefore_append (following : Text) (left right : List Component) :
    AreWellFormedBefore following (left ++ right) ↔
      AreWellFormedBefore (textEach right ++ following) left ∧
        AreWellFormedBefore following right := by
  induction left with
  | nil => simp [AreWellFormedBefore]
  | cons component rest inductionHypothesis =>
      rw [List.cons_append, AreWellFormedBefore, AreWellFormedBefore, inductionHypothesis,
        textEach_append, List.append_assoc, and_assoc]

/-- The components are well formed whatever follows, so all blocks end with their brackets. -/
def AreWellFormed (components : List Component) : Prop :=
  ∀ following, AreWellFormedBefore following components

theorem areWellFormed_nil : AreWellFormed [] := by
  intro following
  exact True.intro

theorem AreWellFormed.append
    {left right : List Component}
    (first : AreWellFormed left)
    (second : AreWellFormed right) :
    AreWellFormed (left ++ right) := by
  intro following
  rw [areWellFormedBefore_append]
  exact ⟨first _, second following⟩

theorem areWellFormed_single {token : SheetToken} (marked : token.IsMarked) :
    AreWellFormed [.single token] := by
  intro following
  exact ⟨marked, True.intro⟩

theorem AreWellFormed.block
    {contents : List Component}
    (inside : AreWellFormed contents)
    (bracket : Bracket)
    (opening : Text) :
    AreWellFormed [.block bracket opening contents [bracket.closingChar]] := by
  intro following
  exact ⟨⟨Or.inl rfl, inside _⟩, True.intro⟩

end Component

open Component (textEach AreWellFormed AreWellFormedBefore)

namespace Grouping

/-! ## Texts -/

/-- The text of components under construction, the innermost of which come first in
the list. -/
def openText : List Component → List OpenBlock → Text
  | current, [] => textEach current
  | current, parent :: rest => openText parent.before rest ++ parent.opening ++ textEach current

def text (grouping : Grouping) : Text := openText grouping.current grouping.enclosing

theorem openText_append (current added : List Component) (enclosing : List OpenBlock) :
    openText (current ++ added) enclosing = openText current enclosing ++ textEach added := by
  cases enclosing with
  | nil => simp [openText]
  | cons parent rest => simp [openText]

theorem text_push (component : Component) (grouping : Grouping) :
    (grouping.push component).text = grouping.text ++ component.text := by
  simp only [text, push, openText_append, textEach, List.append_nil]

theorem text_leave (bracket : Bracket) (token : SheetToken) (grouping : Grouping) :
    (grouping.leave bracket token).text = grouping.text ++ token.raw := by
  unfold leave
  split
  · exact text_push (.single token) grouping
  next parent rest nested =>
    split
    · simp only [text, nested, openText_append, openText, textEach, Component.text,
        List.append_nil, List.append_assoc]
    · exact text_push (.single token) grouping

/-- A token adds its text at the end. -/
theorem text_take (grouping : Grouping) (token : SheetToken) :
    (grouping.take token).text = grouping.text ++ token.raw := by
  unfold take
  split
  · simp [enter, text, openText, textEach]
  · exact text_leave _ token grouping
  · exact text_push (.single token) grouping

theorem text_foldl_take (tokens : List SheetToken) (grouping : Grouping) :
    (tokens.foldl take grouping).text = grouping.text ++ SheetToken.concat tokens := by
  induction tokens generalizing grouping with
  | nil => simp
  | cons token rest inductionHypothesis =>
      rw [List.foldl_cons, inductionHypothesis, text_take, SheetToken.concat_cons,
        List.append_assoc]

theorem textEach_closeAll (current : List Component) (enclosing : List OpenBlock) :
    textEach (closeAll current enclosing) = openText current enclosing := by
  induction enclosing generalizing current with
  | nil => rfl
  | cons parent rest inductionHypothesis =>
      rw [closeAll, inductionHypothesis, openText_append]
      simp [openText, textEach, Component.text]

/-! ## Well-formed components -/

/-- All tokens and blocks that were taken are well formed. -/
structure IsWellFormed (grouping : Grouping) : Prop where
  current : AreWellFormed grouping.current
  enclosing : ∀ parent ∈ grouping.enclosing, AreWellFormed parent.before

theorem isWellFormed_empty : empty.IsWellFormed where
  current := Component.areWellFormed_nil
  enclosing := nofun

theorem IsWellFormed.push_single
    {grouping : Grouping}
    {token : SheetToken}
    (wellFormed : grouping.IsWellFormed)
    (marked : token.IsMarked) :
    (grouping.push (.single token)).IsWellFormed where
  current := wellFormed.current.append (Component.areWellFormed_single marked)
  enclosing := wellFormed.enclosing

theorem IsWellFormed.enter
    {grouping : Grouping}
    (wellFormed : grouping.IsWellFormed)
    (bracket : Bracket)
    (opening : Text) :
    (grouping.enter bracket opening).IsWellFormed where
  current := Component.areWellFormed_nil
  enclosing := by
    intro parent member
    rcases List.mem_cons.mp member with rfl | member
    · exact wellFormed.current
    · exact wellFormed.enclosing parent member

theorem IsWellFormed.leave
    {grouping : Grouping}
    {bracket : Bracket}
    {token : SheetToken}
    (wellFormed : grouping.IsWellFormed)
    (marked : token.IsMarked)
    (written : token.raw = [bracket.closingChar]) :
    (grouping.leave bracket token).IsWellFormed := by
  unfold Grouping.leave
  split
  · exact wellFormed.push_single marked
  next parent rest nested =>
    split
    next =>
      have before : AreWellFormed parent.before := wellFormed.enclosing parent (by simp [nested])
      refine ⟨before.append ?_, ?_⟩
      · rw [written]
        exact wellFormed.current.block bracket parent.opening
      · intro outer member
        exact wellFormed.enclosing outer (by simp [nested, member])
    next => exact wellFormed.push_single marked

theorem IsWellFormed.take
    {grouping : Grouping}
    {token : SheetToken}
    (wellFormed : grouping.IsWellFormed)
    (marked : token.IsMarked) :
    (grouping.take token).IsWellFormed := by
  unfold Grouping.take
  split
  · exact wellFormed.enter _ _
  next bracket kind =>
    apply wellFormed.leave marked
    apply marked.mark
    rw [kind]
    rfl
  · exact wellFormed.push_single marked

theorem IsWellFormed.foldl_take
    {tokens : List SheetToken}
    {grouping : Grouping}
    (wellFormed : grouping.IsWellFormed)
    (marked : ∀ token ∈ tokens, token.IsMarked) :
    (tokens.foldl Grouping.take grouping).IsWellFormed := by
  induction tokens generalizing grouping with
  | nil => exact wellFormed
  | cons token rest inductionHypothesis =>
      apply inductionHypothesis (wellFormed.take (marked token List.mem_cons_self))
      intro other member
      exact marked other (List.mem_cons_of_mem token member)

/-- The blocks that are open at the end are followed by nothing. -/
theorem areWellFormedBefore_closeAll
    {current : List Component}
    {enclosing : List OpenBlock}
    (currentWellFormed : AreWellFormedBefore [] current)
    (enclosingWellFormed : ∀ parent ∈ enclosing, AreWellFormed parent.before) :
    AreWellFormedBefore [] (closeAll current enclosing) := by
  induction enclosing generalizing current with
  | nil => exact currentWellFormed
  | cons parent rest inductionHypothesis =>
      apply inductionHypothesis
      · rw [Component.areWellFormedBefore_append]
        refine ⟨enclosingWellFormed parent List.mem_cons_self _, ⟨Or.inr ?_, ?_⟩, True.intro⟩
        · rfl
        · exact currentWellFormed
      · intro outer member
        exact enclosingWellFormed outer (List.mem_cons_of_mem parent member)

end Grouping

/-! ## The components of a text -/

/-- The components of a text are written as the text. -/
theorem Component.textEach_ofText (source : Text) : textEach (ofText source) = source := by
  show textEach (Grouping.closeAll _ _) = source
  rw [Grouping.textEach_closeAll]
  show ((SheetToken.scan source).foldl Grouping.take Grouping.empty).text = source
  rw [Grouping.text_foldl_take, SheetToken.concat_scan]
  rfl

/-- A block of a text that is not closed is the last thing in the text. -/
theorem Component.areWellFormedBefore_ofText (source : Text) :
    AreWellFormedBefore [] (ofText source) := by
  have marked := @SheetToken.isMarked_of_mem_scan source
  have wellFormed := Grouping.isWellFormed_empty.foldl_take marked
  exact Grouping.areWellFormedBefore_closeAll (wellFormed.current []) wellFormed.enclosing

end CssRescale
