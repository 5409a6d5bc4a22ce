import CssRescale.Proofs.Sheet.Places
import CssRescale.Proofs.Sheet.Written

/-!
Contract: every declaration of a written sheet is located, and nothing else.

An item of a rule is a declaration or a rule by what follows its first token: in a
declaration a semicolon comes before any block, in a rule a block comes before any
semicolon. So the walk through the components of a written item leaves it where it
came to it, ready for the next item, and has located what the item says.

Owns: the walk through declarations and rules, and the completeness of locating.
-/

set_option autoImplicit false

namespace CssRescale

open Text (byteLength)
open Segment (concat)
open Declaration (ofSegments)

namespace Declaration

theorem ofSegments_append (offset : Nat) (left right : List Segment) :
    ofSegments offset (left ++ right) =
      ofSegments offset left ++ ofSegments (offset + byteLength (concat left)) right := by
  induction left generalizing offset with
  | nil => rfl
  | cons segment rest inductionHypothesis =>
      cases segment with
      | verbatim text =>
          rw [List.cons_append, ofSegments_verbatim, ofSegments_verbatim, inductionHypothesis,
            Segment.concat_cons, Text.byteLength_append, ← Nat.add_assoc]
          rfl
      | value property text =>
          rw [List.cons_append, ofSegments_value, ofSegments_value, inductionHypothesis,
            Segment.concat_cons, Text.byteLength_append, ← Nat.add_assoc]
          rfl

end Declaration

namespace Component

/-- The walk through the rules of a sheet is between the start of a rule and its block. -/
inductive SheetState.IsInHead : SheetState → Prop where
  | rule : IsInHead .prelude
  | atRule : IsInHead .atRule

theorem SheetState.IsInHead.step_eq
    {state : SheetState}
    {token : SheetToken}
    (inHead : state.IsInHead)
    (noSemicolon : token.kind ≠ .semicolon)
    (rest : List Component) :
    state.step token rest = state := by
  cases inHead with
  | rule => rfl
  | atRule => simp [SheetState.step, noSemicolon]

theorem SheetState.IsInHead.skip_eq {state : SheetState} (inHead : state.IsInHead) :
    state.skip = state := by
  cases inHead with
  | rule => rfl
  | atRule => rfl

theorem SheetState.IsInHead.entersBlock_eq {state : SheetState} (inHead : state.IsInHead) :
    state.entersBlock = true := by
  cases inHead with
  | rule => rfl
  | atRule => rfl

/-! ## Telling declarations and rules apart -/

section

variable
  {components : List Component}
  (plain : ∀ component ∈ components, component.isStructural = false)
  (rest : List Component)

include plain

/-- A curly block before any semicolon is found. -/
theorem any_isCurlyBlock_takeWhile (opening : Text) (contents : List Component) (closing : Text) :
    ((components ++ .block .curly opening contents closing :: rest).takeWhile
      fun next => !next.isSemicolon).any isCurlyBlock = true := by
  induction components with
  | nil => rfl
  | cons component others inductionHypothesis =>
      have here := plain component List.mem_cons_self
      have later := inductionHypothesis fun other member =>
        plain other (List.mem_cons_of_mem component member)
      simp only [isStructural, Bool.or_eq_false_iff] at here
      simp [here, later]

/-- A curly block before any semicolon is not the value of a declaration. -/
theorem makeDeclaration_of_block (opening : Text) (contents : List Component) (closing : Text) :
    makeDeclaration (components ++ .block .curly opening contents closing :: rest) = false := by
  induction components with
  | nil => rfl
  | cons component others inductionHypothesis =>
      have othersPlain : ∀ other ∈ others, other.isStructural = false := fun other member =>
        plain other (List.mem_cons_of_mem component member)
      by_cases trivia : component.isTrivia = true
      · have later := inductionHypothesis othersPlain
        rw [makeDeclaration, afterColon?] at later ⊢
        rwa [List.cons_append, List.dropWhile_cons_of_pos trivia]
      · have found := any_isCurlyBlock_takeWhile othersPlain rest opening contents closing
        by_cases colon : component.isColon = true
        · simp [makeDeclaration, afterColon?, trivia, colon, found]
        · simp [makeDeclaration, afterColon?, trivia, colon]

theorem takeWhile_before_semicolon :
    ((components ++ .single ⟨.semicolon, [';']⟩ :: rest).takeWhile
      fun next => !next.isSemicolon) = components := by
  induction components with
  | nil => rfl
  | cons component others inductionHypothesis =>
      have here := plain component List.mem_cons_self
      have later := inductionHypothesis fun other member =>
        plain other (List.mem_cons_of_mem component member)
      simp only [isStructural, Bool.or_eq_false_iff] at here
      simp [here, later]

/-- A value that a semicolon ends before any curly block makes a declaration. -/
theorem makeDeclaration_of_semicolon :
    makeDeclaration (.single ⟨.colon, [':']⟩ ::
      (components ++ .single ⟨.semicolon, [';']⟩ :: rest)) = true := by
  have colon : afterColon? (.single ⟨.colon, [':']⟩ ::
      (components ++ .single ⟨.semicolon, [';']⟩ :: rest)) =
        some (components ++ .single ⟨.semicolon, [';']⟩ :: rest) := rfl
  have noBlock : components.any isCurlyBlock = false := by
    rw [List.any_eq_false]
    intro component member
    have here := plain component member
    simp only [isStructural, Bool.or_eq_false_iff] at here
    simp [here]
  simp only [makeDeclaration, colon, takeWhile_before_semicolon plain, noBlock]
  rfl

/-! ## Walking through calm components -/

theorem ofSegments_body_prelude (offset : Nat) :
    ofSegments offset (body .prelude (components ++ rest)) =
      ofSegments (offset + byteLength (textEach components)) (body .prelude rest) := by
  induction components generalizing offset with
  | nil => rfl
  | cons component others inductionHypothesis =>
      have here := plain component List.mem_cons_self
      have later := inductionHypothesis fun other member =>
        plain other (List.mem_cons_of_mem component member)
      rw [textEach, Text.byteLength_append, ← Nat.add_assoc]
      cases component with
      | single token =>
          have noSemicolon := isStructural_single_iff.mp here
          rw [List.cons_append, body]
          simp only [BodyState.step, if_neg noSemicolon]
          exact later _
      | block bracket opening contents closing =>
          have notCurly := isCurlyBlock_of_isStructural here
          rw [List.cons_append, body]
          · simp only [notCurly, BodyState.skip, Bool.and_false]
            rw [if_neg Bool.false_ne_true]
            exact later _
          · exact fun _ => Component.noConfusion

theorem ofSegments_sheet_head
    {state : SheetState}
    (inHead : state.IsInHead)
    (offset : Nat) :
    ofSegments offset (sheet state (components ++ rest)) =
      ofSegments (offset + byteLength (textEach components)) (sheet state rest) := by
  induction components generalizing offset with
  | nil => rfl
  | cons component others inductionHypothesis =>
      have here := plain component List.mem_cons_self
      have later := inductionHypothesis fun other member =>
        plain other (List.mem_cons_of_mem component member)
      rw [textEach, Text.byteLength_append, ← Nat.add_assoc]
      cases component with
      | single token =>
          have noSemicolon := isStructural_single_iff.mp here
          rw [List.cons_append, sheet, inHead.step_eq noSemicolon]
          exact later _
      | block bracket opening contents closing =>
          have notCurly := isCurlyBlock_of_isStructural here
          rw [List.cons_append, sheet]
          · rw [notCurly, if_neg Bool.false_ne_true, inHead.skip_eq]
            exact later _
          · exact fun _ => Component.noConfusion

end

/-! ## Walking through rules -/

theorem BodyState.enter_of_opensRule
    {kind : SheetTokenKind}
    {rest : List Component}
    (opens : kind.OpensRule)
    (noDeclaration : makeDeclaration rest = false) :
    BodyState.enter kind rest = .prelude := by
  cases opens with
  | other => rfl
  | identifier ordinary => simp [BodyState.enter, noDeclaration, makeCustom, ordinary]
  | atKeyword => rfl

theorem SheetState.isInHead_enter
    {kind : SheetTokenKind}
    (opens : kind.OpensRule)
    (first : Bool)
    (rest : List Component) :
    (SheetState.enter first kind rest).IsInHead := by
  cases opens with
  | other => exact .rule
  | identifier ordinary =>
      simp only [SheetState.enter, makeCustom, ordinary, Bool.false_and]
      exact .rule
  | atKeyword notCharset =>
      simp only [SheetState.enter, notCharset, Bool.and_false]
      exact .atRule

/-- The block of a rule of a sheet is looked into. -/
theorem sheet_curly
    {state : SheetState}
    (enters : state.entersBlock = true)
    (opening : Text)
    (contents : List Component)
    (closing : Text)
    (rest : List Component) :
    sheet state (.block .curly opening contents closing :: rest) =
      (Component.block .curly opening contents closing).inside ++ sheet (.start false) rest := by
  rw [sheet]
  · simp only [isCurlyBlock, enters]
    rfl
  · exact fun _ => Component.noConfusion

/-- The segments of a block with curly brackets, before others. -/
theorem ofSegments_inside (offset : Nat) (contents : List Component) (rest : List Segment) :
    ofSegments offset
        ((Component.block .curly ['\x7b'] contents ['\x7d']).inside ++ rest) =
      ofSegments (offset + 1) (body .start contents)
        ++ ofSegments (offset + 1 + byteLength (textEach contents) + 1) rest := by
  have contentsText : byteLength (concat (body .start contents)) =
      byteLength (textEach contents) := by
    rw [concat_body]
    rfl
  simp only [inside, List.cons_append, List.append_assoc, List.nil_append,
    Declaration.ofSegments_verbatim, Declaration.ofSegments_append, contentsText]
  rfl

/-! ## Items -/

open RuleItem (components componentsEach locatedEach)

/-- A head is a token that starts a rule, and components that do not end the head. -/
theorem exists_ofText_head (head : RuleHead) :
    ∃ token more,
      ofText head.text = .single token :: more ∧ token.kind.OpensRule ∧
        (∀ component ∈ more, component.isStructural = false) ∧
        byteLength head.text = byteLength token.raw + byteLength (textEach more) := by
  obtain ⟨token, tokens, scanned, opens⟩ := head.exists_scan
  obtain ⟨more, whole⟩ := Grouping.exists_ofText_eq_cons head.isCalm.isQuiet scanned
    opens.isBracket_eq_false
  refine ⟨token, more, whole, opens, fun component member => ?_, ?_⟩
  · apply Grouping.isStructural_of_mem_ofText head.isCalm
    rw [whole]
    exact List.mem_cons_of_mem _ member
  · rw [← textEach_ofText head.text, whole, textEach, Text.byteLength_append]
    rfl

/-- The walk through a declaration finds it. -/
theorem body_declaration (property : LetterName) (value : CalmText) (rest : List Component) :
    body .start ((RuleItem.declaration property value).components ++ rest) =
      [.verbatim property.text, .verbatim [':'], .value property.text value.text, .verbatim [';']]
        ++ body .start rest := by
  have plain := Grouping.isStructural_of_mem_ofText value.isCalm
  have parts : (RuleItem.declaration property value).components ++ rest =
      .single ⟨.identifier property.text, property.text⟩ :: .single ⟨.colon, [':']⟩
        :: (ofText value.text ++ .single ⟨.semicolon, [';']⟩ :: rest) := by
    simp [components]
  have entered := makeDeclaration_of_semicolon plain rest
  have noSemicolon := fun component member =>
    (Bool.or_eq_false_iff.mp (plain component member)).1
  rw [parts, body, body]
  simp only [BodyState.step, BodyState.enter, if_pos entered]
  rw [if_pos True.intro, body_value noSemicolon, textEach_ofText, body]
  rfl

/-- The walk through a rule finds what is in its block. -/
theorem ofSegments_body_rule
    (head : RuleHead)
    (contents rest : List Component)
    (offset : Nat) :
    ofSegments offset
        (body .start (ofText head.text ++ .block .curly ['\x7b'] contents ['\x7d'] :: rest)) =
      ofSegments (offset + byteLength head.text + 1) (body .start contents)
        ++ ofSegments (offset + byteLength head.text + 1 + byteLength (textEach contents) + 1)
          (body .start rest) := by
  obtain ⟨token, more, whole, opens, plain, size⟩ := exists_ofText_head head
  have noDeclaration := makeDeclaration_of_block plain rest ['\x7b'] contents ['\x7d']
  rw [whole, size, ← Nat.add_assoc, List.cons_append, body]
  simp only [BodyState.step, BodyState.enter_of_opensRule opens noDeclaration]
  rw [List.cons_append, List.nil_append, Declaration.ofSegments_verbatim,
    ofSegments_body_prelude plain, body]
  · exact ofSegments_inside _ contents _
  · exact fun _ => Component.noConfusion

mutual

/-- The walk through an item finds the declarations of the item, and then goes on. -/
theorem ofSegments_body_item :
    ∀ (item : RuleItem) (rest : List Component) (offset : Nat),
      ofSegments offset (body .start (item.components ++ rest)) =
        item.located offset ++ ofSegments (offset + byteLength item.text) (body .start rest)
  | .declaration property value, rest, offset => by
      have size := RuleItem.byteLength_declaration property value
      have colon : byteLength [':'] = 1 := rfl
      have semicolon : byteLength [';'] = 1 := rfl
      rw [body_declaration, size]
      simp only [List.cons_append, List.nil_append, Declaration.ofSegments_verbatim,
        Declaration.ofSegments_value, colon, semicolon, RuleItem.located, ← Nat.add_assoc]
  | .rule head items, rest, offset => by
      have size := RuleItem.byteLength_rule head items
      rw [components, List.append_assoc, List.cons_append, List.nil_append, ofSegments_body_rule,
        ofSegments_body_items items, RuleItem.textEach_componentsEach items, size]
      simp only [RuleItem.located, ← Nat.add_assoc]

theorem ofSegments_body_items :
    ∀ (items : List RuleItem) (offset : Nat),
      ofSegments offset (body .start (componentsEach items)) = locatedEach offset items
  | [], offset => rfl
  | item :: rest, offset => by
      rw [componentsEach, ofSegments_body_item item, ofSegments_body_items rest, locatedEach]

end

/-- The walk through a rule of a sheet finds what is in its block, and then goes on. -/
theorem ofSegments_sheet_rule
    (rule : SheetRule)
    (first : Bool)
    (rest : List Component)
    (offset : Nat) :
    ofSegments offset (sheet (.start first) (rule.item.components ++ rest)) =
      rule.item.located offset
        ++ ofSegments (offset + byteLength rule.item.text) (sheet (.start false) rest) := by
  obtain ⟨head, items⟩ := rule
  obtain ⟨token, more, whole, opens, plain, headSize⟩ := exists_ofText_head head
  have parts : (RuleItem.rule head items).components ++ rest =
      .single token
        :: (more ++ .block .curly ['\x7b'] (componentsEach items) ['\x7d'] :: rest) := by
    rw [components, whole]
    simp
  have inHead := SheetState.isInHead_enter opens first
    (more ++ .block .curly ['\x7b'] (componentsEach items) ['\x7d'] :: rest)
  show ofSegments offset (sheet (.start first) ((RuleItem.rule head items).components ++ rest)) =
    (RuleItem.rule head items).located offset
      ++ ofSegments (offset + byteLength (RuleItem.rule head items).text)
        (sheet (.start false) rest)
  rw [parts, RuleItem.byteLength_rule, headSize, sheet, Declaration.ofSegments_verbatim]
  simp only [SheetState.step]
  rw [ofSegments_sheet_head plain _ inHead, sheet_curly inHead.entersBlock_eq, ofSegments_inside,
    ofSegments_body_items items, RuleItem.textEach_componentsEach items]
  simp only [RuleItem.located, headSize, ← Nat.add_assoc]

theorem ofSegments_sheet_rules :
    ∀ (rules : List SheetRule) (first : Bool) (offset : Nat),
      ofSegments offset (sheet (.start first) (componentsEach (rules.map SheetRule.item))) =
        locatedEach offset (rules.map SheetRule.item)
  | [], _, _ => rfl
  | rule :: rest, first, offset => by
      rw [List.map_cons, componentsEach, ofSegments_sheet_rule, ofSegments_sheet_rules rest,
        locatedEach]

end Component

/-! ## The texts at the places -/

namespace RuleItem

open Declaration (textIn)

mutual

/-- What stands at the places of the declarations of an item are their values. -/
theorem map_located :
    ∀ (item : RuleItem) (before after : Text),
      (item.located (byteLength before)).map (fun declaration =>
          (declaration.property, declaration.textIn (before ++ (item.text ++ after)))) =
        item.declarations
  | .declaration property value, before, after => by
      have start : byteLength before + byteLength property.text + 1 =
          byteLength (before ++ property.text ++ [':']) := by
        simp only [Text.byteLength_append]
        rfl
      have slice := Text.slice?_append (before ++ property.text ++ [':']) value.text (';' :: after)
      have parts : before ++ ((declaration property value).text ++ after) =
          before ++ property.text ++ [':'] ++ (value.text ++ ';' :: after) := by
        simp [text]
      rw [Text.byteLength_append _ value.text] at slice
      simp only [located, start, parts, textIn, List.map_cons, slice]
      rfl
  | .rule head items, before, after => by
      have start : byteLength before + byteLength head.text + 1 =
          byteLength (before ++ head.text ++ ['\x7b']) := by
        simp only [Text.byteLength_append]
        rfl
      have parts : before ++ ((rule head items).text ++ after) =
          before ++ head.text ++ ['\x7b'] ++ (textEach items ++ '\x7d' :: after) := by
        simp [text]
      rw [located, start, parts, declarations]
      exact map_locatedEach items _ _

theorem map_locatedEach :
    ∀ (items : List RuleItem) (before after : Text),
      (locatedEach (byteLength before) items).map (fun declaration =>
          (declaration.property, declaration.textIn (before ++ (textEach items ++ after)))) =
        declarationsEach items
  | [], before, after => rfl
  | item :: rest, before, after => by
      have first := map_located item before (textEach rest ++ after)
      have others := map_locatedEach rest (before ++ item.text) after
      have afterItem : before ++ item.text ++ (textEach rest ++ after) =
          before ++ (item.text ++ (textEach rest ++ after)) := List.append_assoc _ _ _
      rw [Text.byteLength_append, afterItem] at others
      rw [locatedEach, List.map_append, textEach, List.append_assoc, first, others,
        declarationsEach]

end

end RuleItem

/-- The declarations located in a written sheet are those it was written from, all of
them, in order, each at the place of its value. -/
theorem Declaration.ofSheet_textEach (rules : List SheetRule) :
    ofSheet (SheetRule.textEach rules) =
        RuleItem.locatedEach 0 (rules.map SheetRule.item) ∧
      (ofSheet (SheetRule.textEach rules)).map (fun declaration =>
          (declaration.property, declaration.textIn (SheetRule.textEach rules))) =
        RuleItem.declarationsEach (rules.map SheetRule.item) := by
  have located : ofSheet (SheetRule.textEach rules) =
      RuleItem.locatedEach 0 (rules.map SheetRule.item) := by
    rw [ofSheet, Segment.ofSheet, SheetRule.textEach, RuleItem.ofText_textEach]
    exact Component.ofSegments_sheet_rules rules true 0
  have texts := RuleItem.map_locatedEach (rules.map SheetRule.item) [] []
  rw [List.append_nil] at texts
  refine ⟨located, ?_⟩
  rw [located]
  exact texts

-- A declaration and a nested rule that start alike.
example : Declaration.ofSheet "a\x7ba:hover;a:hover\x7bc:d;\x7d\x7d".toList =
    [⟨['a'], 4, 9⟩, ⟨['c'], 20, 21⟩] := by decide +kernel

end CssRescale
