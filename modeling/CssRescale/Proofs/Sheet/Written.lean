import CssRescale.Proofs.Sheet.Blocks
import CssRescale.Proofs.Sheet.Enclosed
import CssRescale.Proofs.Text.Bytes

/-!
Contract: sheets that are written from their rules have these rules as components.

A sheet is a list of rules, each a selector or an at-rule with a block, whose items
are declarations and rules again, at any depth. The parts carry the proofs that they
cannot be taken for anything else: names are letters, and all other texts are calm.

Owns:
- the type of rules, their text, and the declarations in it with their places;
- the components of the text of rules.

Does not own: the walk that locates declarations among components.
-/

set_option autoImplicit false

namespace CssRescale

open Text (IsCalm isCalm isParenthesis byteLength ne_of_isAlpha)

/-! ## Parts -/

/-- A name of ASCII letters. -/
structure LetterName where
  text : Text
  ne_nil : text ≠ []
  letters : ∀ c ∈ text, c.isAlpha = true

/-- The name of an at-rule, except of the one that gives the encoding. -/
structure AtRuleName extends LetterName where
  notCharset : Text.equalIgnoringCase text Component.charsetName = false

/-- A text without brackets other than nested parentheses. Letters, digits, white space
and marks such as points, commas, signs, stars and exclamation marks may all be in it. -/
structure CalmText where
  text : Text
  isCalm : IsCalm 0 text

/-- The characters that a selector starts with here. -/
def startsSelector (c : Char) : Bool := c.isAlpha || c == '.' || c == '&'

/-- A calm text without parentheses that starts with a letter, a point or an ampersand,
such as `a:hover > .b, &.c`. -/
structure SelectorText where
  text : Text
  starts : Text.headIs startsSelector text = true
  calm : ∀ c ∈ text, isCalm c = true
  free : ∀ c ∈ text, isParenthesis c = false

theorem isCalm_of_isAlpha {c : Char} (letter : c.isAlpha = true) : isCalm c = true := by
  simp [isCalm, isQuote, ne_of_isAlpha letter]

theorem LetterName.free (name : LetterName) : ∀ c ∈ name.text, isParenthesis c = false :=
  fun c member => Text.isParenthesis_eq_false (name.letters c member) rfl rfl

theorem LetterName.isCalm (name : LetterName) : IsCalm 0 name.text where
  calm := fun c member => isCalm_of_isAlpha (name.letters c member)
  closes := by
    have closed := Text.closes_append name.free 0 []
    rw [List.append_nil] at closed
    rw [closed]
    rfl

theorem SelectorText.isCalm (selector : SelectorText) : IsCalm 0 selector.text where
  calm := selector.calm
  closes := by
    have closed := Text.closes_append selector.free 0 []
    rw [List.append_nil] at closed
    rw [closed]
    rfl

/-! ## Rules -/

/-- What stands before the block of a rule. -/
inductive RuleHead where
  | selector (selector : SelectorText)
  | atRule (name : AtRuleName) (condition : CalmText)

def RuleHead.text : RuleHead → Text
  | .selector start => start.text
  | .atRule name condition => '@' :: (name.text ++ ' ' :: condition.text)

/-- What stands in the block of a rule. -/
inductive RuleItem where
  | declaration (property : LetterName) (value : CalmText)
  | rule (head : RuleHead) (items : List RuleItem)

namespace RuleItem

mutual

def text : RuleItem → Text
  | .declaration property value => property.text ++ ':' :: (value.text ++ [';'])
  | .rule head items => head.text ++ '\x7b' :: (textEach items ++ ['\x7d'])

/-- The texts of items, one after another. -/
def textEach : List RuleItem → Text
  | [] => []
  | item :: rest => item.text ++ textEach rest

end

theorem byteLength_declaration (property : LetterName) (value : CalmText) :
    byteLength (declaration property value).text =
      byteLength property.text + 1 + byteLength value.text + 1 := by
  have colon : Char.utf8Size ':' = 1 := rfl
  have semicolon : Char.utf8Size ';' = 1 := rfl
  simp only [text, Text.byteLength_append, Text.byteLength_cons, Text.byteLength_nil, colon,
    semicolon]
  omega

theorem byteLength_rule (head : RuleHead) (items : List RuleItem) :
    byteLength (rule head items).text =
      byteLength head.text + 1 + byteLength (textEach items) + 1 := by
  have opening : Char.utf8Size '\x7b' = 1 := rfl
  have closing : Char.utf8Size '\x7d' = 1 := rfl
  simp only [text, Text.byteLength_append, Text.byteLength_cons, Text.byteLength_nil, opening,
    closing]
  omega

mutual

/-- The declarations of an item that starts at a byte position, with their places. -/
def located (offset : Nat) : RuleItem → List Declaration
  | .declaration property value =>
      let start := offset + byteLength property.text + 1
      [⟨property.text, start, start + byteLength value.text⟩]
  | .rule head items => locatedEach (offset + byteLength head.text + 1) items

def locatedEach (offset : Nat) : List RuleItem → List Declaration
  | [] => []
  | item :: rest => item.located offset ++ locatedEach (offset + byteLength item.text) rest

end

mutual

/-- The properties and values of an item, in order. -/
def declarations : RuleItem → List (Text × Text)
  | .declaration property value => [(property.text, value.text)]
  | .rule _ items => declarationsEach items

def declarationsEach : List RuleItem → List (Text × Text)
  | [] => []
  | item :: rest => item.declarations ++ declarationsEach rest

end

mutual

def components : RuleItem → List Component
  | .declaration property value =>
      .single ⟨.identifier property.text, property.text⟩ :: .single ⟨.colon, [':']⟩
        :: (Component.ofText value.text ++ [.single ⟨.semicolon, [';']⟩])
  | .rule head items =>
      Component.ofText head.text
        ++ [.block .curly ['\x7b'] (componentsEach items) ['\x7d']]

def componentsEach : List RuleItem → List Component
  | [] => []
  | item :: rest => item.components ++ componentsEach rest

end

end RuleItem

/-- A rule of a sheet. -/
structure SheetRule where
  head : RuleHead
  items : List RuleItem

def SheetRule.item (rule : SheetRule) : RuleItem := .rule rule.head rule.items

/-- The text of the rules of a sheet, one after another. -/
def SheetRule.textEach (rules : List SheetRule) : Text := RuleItem.textEach (rules.map item)

/-! ## Calm heads -/

theorem RuleHead.isCalm (head : RuleHead) : IsCalm 0 head.text := by
  cases head with
  | selector start => exact start.isCalm
  | atRule name condition =>
      have free : ∀ c ∈ '@' :: (name.text ++ [' ']), isParenthesis c = false := by
        intro c member
        simp only [List.mem_cons, List.mem_append, List.not_mem_nil, or_false] at member
        rcases member with rfl | member | rfl
        · rfl
        · exact name.free c member
        · rfl
      have whole : (RuleHead.atRule name condition).text =
          '@' :: (name.text ++ [' ']) ++ condition.text := by
        simp [RuleHead.text]
      rw [whole]
      refine ⟨?_, ?_⟩
      · intro c member
        simp only [List.mem_cons, List.mem_append, List.not_mem_nil, or_false] at member
        rcases member with (rfl | member | rfl) | member
        · rfl
        · exact name.isCalm.calm c member
        · rfl
        · exact condition.isCalm.calm c member
      · rw [Text.closes_append free]
        exact condition.isCalm.closes

/-! ## Names -/

namespace SheetToken

open Sheet

theorem takeName_letters
    {letters rest : Text}
    (areLetters : ∀ c ∈ letters, c.isAlpha = true)
    (ends : Text.headIs isNameChar rest = false)
    (noEscape : Text.headIs (· == '\\') rest = false) :
    takeName (letters ++ rest) = (letters, letters, rest) := by
  induction letters with
  | nil => exact takeName_of_ends ends noEscape
  | cons first tail inductionHypothesis =>
      have letter := areLetters first List.mem_cons_self
      have unescaped : first ≠ '\\' := ne_of_isAlpha letter rfl
      have name := isNameChar_of_isAlpha letter
      have kept := nameChar_of_isAlpha letter
      have others := inductionHypothesis fun c member =>
        areLetters c (List.mem_cons_of_mem first member)
      simp [takeName, unescaped, name, kept, others]

theorem ordinary_of_isAlpha
    {first : Char}
    (letter : first.isAlpha = true)
    (rest : Text) :
    Ordinary first rest where
  blank := by
    simp [isBlank, ne_of_isAlpha letter]
  quote := by
    simp [isQuote, ne_of_isAlpha letter]
  number := Token.startsNumber_of_isAlpha letter rest
  special := by
    have other : ∀ c : Char, c.isAlpha = false → (c == first) = false := by
      intro c isOther
      simpa using (ne_of_isAlpha letter isOther).symm
    simp [startsSpecial_eq, List.isPrefixOf, other]

theorem nextOf_letter
    {first : Char}
    (letter : first.isAlpha = true)
    (rest : Text) :
    nextOf first rest = readName (first :: rest) :=
  (Starts.name (ordinary_of_isAlpha letter rest) (startsName_of_isAlpha letter rest)).nextOf_eq

/-- A name of letters is one token. -/
theorem scan_letterName (name : LetterName) :
    scan name.text = [⟨.identifier name.text, name.text⟩] := by
  have taken := @takeName_letters name.text [] name.letters rfl rfl
  rw [List.append_nil] at taken
  have read := @readName_identifier name.text (by rw [taken]; rfl)
  rw [taken] at read
  cases written : name.text with
  | nil => exact absurd written name.ne_nil
  | cons first rest =>
      have letter := name.letters first (by simp [written])
      rw [written] at read
      rw [scan, nextOf_letter letter, read, scan_nil]

end SheetToken

/-! ## The start of a rule -/

/-- A token of this kind starts a rule, unless a declaration starts with it. -/
inductive SheetTokenKind.OpensRule : SheetTokenKind → Prop where
  | other : OpensRule .other
  | identifier {name : Text}
      (ordinary : Component.customStart.isPrefixOf name = false) :
      OpensRule (.identifier name)
  | atKeyword {name : Text}
      (notCharset : Text.equalIgnoringCase name Component.charsetName = false) :
      OpensRule (.atKeyword name)

theorem SheetTokenKind.OpensRule.isBracket_eq_false
    {kind : SheetTokenKind}
    (opens : kind.OpensRule) :
    kind.isBracket = false := by
  cases opens with
  | other => rfl
  | identifier => rfl
  | atKeyword => rfl

open SheetTokenKind (OpensRule)

namespace SheetToken

open Sheet

theorem opensRule_nextOf_letter
    {first : Char}
    {rest : Text}
    (letter : first.isAlpha = true)
    (free : ∀ c ∈ rest, isParenthesis c = false) :
    (nextOf first rest).1.kind.OpensRule := by
  have noCall : Text.headIs (· == '(') (takeName (first :: rest)).2.2 = false := by
    have whole := takeName_append (first :: rest)
    cases left : (takeName (first :: rest)).2.2 with
    | nil => rfl
    | cons second tail =>
        have member : second ∈ first :: rest := by
          rw [← whole, left]
          exact List.mem_append_right _ List.mem_cons_self
        rw [Text.headIs, beq_eq_false_iff_ne]
        rintro rfl
        rcases List.mem_cons.mp member with same | member
        · exact ne_of_isAlpha letter rfl same.symm
        · exact Bool.noConfusion (free _ member)
  have unescaped : first ≠ '\\' := ne_of_isAlpha letter rfl
  have name : isNameChar first = true := by simp [isNameChar, Char.isAlphanum, letter]
  have noHyphen : ('-' == first) = false := by simpa using (ne_of_isAlpha letter rfl).symm
  rw [nextOf_letter letter, readName_identifier noCall]
  apply OpensRule.identifier
  simp [takeName, unescaped, name, nameChar_of_isAlpha letter, Component.customStart,
    List.isPrefixOf, noHyphen]

theorem opensRule_nextOf_mark
    {first : Char}
    (mark : first = '.' ∨ first = '&')
    (rest : Text) :
    (nextOf first rest).1.kind.OpensRule := by
  have other : (nextOf first rest).1.kind = .other := by
    have starts := starts_nextOf first rest
    generalize nextOf first rest = result at starts ⊢
    cases starts with
    | number => exact kind_readNumber _
    | single => rcases mark with rfl | rfl <;> rfl
    | blank blank => rcases mark with rfl | rfl <;> cases blank
    | string quote => rfl
    | name ordinary name => rcases mark with rfl | rfl <;> cases name
    | comment => rcases mark with mark | mark <;> cases mark
    | openMarker => rcases mark with mark | mark <;> cases mark
    | closeMarker => rcases mark with mark | mark <;> cases mark
    | atSign => rcases mark with mark | mark <;> cases mark
    | hash => rcases mark with mark | mark <;> cases mark
  rw [other]
  exact OpensRule.other

theorem nextOf_atRule (name : AtRuleName) (condition : Text) :
    nextOf '@' (name.text ++ ' ' :: condition) =
      (⟨.atKeyword name.text, '@' :: name.text⟩, ' ' :: condition) := by
  have taken := @takeName_letters name.text (' ' :: condition) name.letters rfl rfl
  have names : startsName (name.text ++ ' ' :: condition) = true := by
    cases written : name.text with
    | nil => exact absurd written name.ne_nil
    | cons first rest =>
        have letter := name.letters first (by simp [written])
        exact startsName_of_isAlpha letter _
  show readAt _ = _
  rw [readAt, if_pos names, taken]

end SheetToken

/-- The first token of a head is one that starts a rule. -/
theorem RuleHead.exists_scan (head : RuleHead) :
    ∃ token tokens,
      SheetToken.scan head.text = token :: tokens ∧ token.kind.OpensRule := by
  cases head with
  | selector start =>
      show ∃ token tokens, SheetToken.scan start.text = token :: tokens ∧ token.kind.OpensRule
      cases written : start.text with
      | nil => exact absurd start.starts (by simp [written, Text.headIs])
      | cons first rest =>
          have starts := start.starts
          have free := start.free
          rw [written] at starts free
          simp only [Text.headIs, startsSelector, Bool.or_eq_true, beq_iff_eq, or_assoc] at starts
          refine ⟨_, _, by rw [SheetToken.scan], ?_⟩
          rcases starts with letter | mark
          · apply SheetToken.opensRule_nextOf_letter letter
            exact fun c member => free c (List.mem_cons_of_mem first member)
          · exact SheetToken.opensRule_nextOf_mark mark rest
  | atRule name condition =>
      refine ⟨_, _, by rw [RuleHead.text, SheetToken.scan], ?_⟩
      rw [SheetToken.nextOf_atRule]
      exact OpensRule.atKeyword name.notCharset

/-! ## The components of a written sheet -/

open Grouping (take)

/-- A character that structures a sheet is a token of its own. -/
theorem SheetToken.scan_mark
    {mark : Char}
    (separates : Text.separates mark = true)
    (rest : Text) :
    scan (mark :: rest) = ⟨kindOf mark, [mark]⟩ :: scan rest := by
  rcases (Text.isApart_cons separates rest).cases with empty | ⟨_, same⟩
  · cases empty
  · rcases same with same | same | same | same
    all_goals
      cases same
      exact scan_of_starts (.single ⟨rfl, rfl, rfl, rfl⟩ rfl)

/-- A quiet text before a character that structures a sheet. -/
theorem Grouping.foldl_take_quiet
    {text : Text}
    {mark : Char}
    {outer : Grouping}
    (isQuiet : Text.IsQuiet 0 text)
    (separates : Text.separates mark = true)
    (notRound : outer.IsNotIn .round)
    (rest : Text) :
    (SheetToken.scan (text ++ mark :: rest)).foldl take outer =
      (SheetToken.scan rest).foldl take
        ((outer.pushEach (Component.ofText text)).take ⟨SheetToken.kindOf mark, [mark]⟩) := by
  have apart := Text.isApart_cons separates rest
  rw [(SheetToken.scan_quiet isQuiet).2 _ apart, List.foldl_append,
    Grouping.foldl_take_scan isQuiet notRound, SheetToken.scan_mark separates, List.foldl_cons]

theorem Component.ofText_letterName (name : LetterName) :
    ofText name.text = [.single ⟨.identifier name.text, name.text⟩] := by
  rw [ofText, ofTokens, SheetToken.scan_letterName]
  rfl

namespace RuleItem

theorem foldl_take_declaration
    (property : LetterName)
    (value : CalmText)
    {outer : Grouping}
    (notRound : outer.IsNotIn .round)
    (following : Text) :
    (SheetToken.scan ((declaration property value).text ++ following)).foldl take outer =
      (SheetToken.scan following).foldl take
        (outer.pushEach (declaration property value).components) := by
  have parts : (declaration property value).text ++ following =
      property.text ++ ':' :: (value.text ++ ';' :: following) := by
    simp [text]
  have colon : ∀ grouping : Grouping, grouping.take ⟨SheetToken.kindOf ':', [':']⟩ =
      grouping.pushEach [.single ⟨.colon, [':']⟩] := fun _ => rfl
  have semicolon : ∀ grouping : Grouping, grouping.take ⟨SheetToken.kindOf ';', [';']⟩ =
      grouping.pushEach [.single ⟨.semicolon, [';']⟩] := fun _ => rfl
  have inValue : Grouping.IsNotIn .round (((outer.pushEach (Component.ofText property.text)).take
      ⟨SheetToken.kindOf ':', [':']⟩)) := notRound
  rw [parts, Grouping.foldl_take_quiet property.isCalm.isQuiet rfl notRound,
    Grouping.foldl_take_quiet value.isCalm.isQuiet rfl inValue, semicolon, colon,
    Grouping.pushEach_pushEach, Grouping.pushEach_pushEach, Grouping.pushEach_pushEach,
    Component.ofText_letterName]
  simp [components]

/-- A block around components. -/
theorem leave_enter_pushEach (outer : Grouping) (contents : List Component) :
    ((outer.enter .curly ['\x7b']).pushEach contents).take
        ⟨SheetToken.kindOf '\x7d', ['\x7d']⟩ =
      outer.pushEach [.block .curly ['\x7b'] contents ['\x7d']] := by
  have kind : SheetToken.kindOf '\x7d' = .closing .curly := rfl
  simp [Grouping.take, kind, Grouping.leave, Grouping.enter, Grouping.pushEach]

mutual

/-- The text of an item, taken on top of anything but an open round bracket, adds the
components of the item. -/
theorem foldl_take :
    ∀ (item : RuleItem) {outer : Grouping} (_ : outer.IsNotIn .round) (following : Text),
      (SheetToken.scan (item.text ++ following)).foldl take outer =
        (SheetToken.scan following).foldl take (outer.pushEach item.components)
  | .declaration property value, _, notRound, following =>
      foldl_take_declaration property value notRound following
  | .rule head items, outer, notRound, following => by
      have parts : (rule head items).text ++ following =
          head.text ++ '\x7b' :: (textEach items ++ '\x7d' :: following) := by
        simp [text]
      have opening : ∀ grouping : Grouping, grouping.take ⟨SheetToken.kindOf '\x7b', ['\x7b']⟩ =
          grouping.enter .curly ['\x7b'] := fun _ => rfl
      have inBlock : Grouping.IsNotIn .round
          ((outer.pushEach (Component.ofText head.text)).enter .curly ['\x7b']) := by
        intro parent member
        cases member
        exact Bracket.noConfusion
      rw [parts, Grouping.foldl_take_quiet head.isCalm.isQuiet rfl notRound, opening,
        foldl_take_each items inBlock, SheetToken.scan_mark rfl, List.foldl_cons,
        leave_enter_pushEach, Grouping.pushEach_pushEach, components]

theorem foldl_take_each :
    ∀ (items : List RuleItem) {outer : Grouping} (_ : outer.IsNotIn .round) (following : Text),
      (SheetToken.scan (textEach items ++ following)).foldl take outer =
        (SheetToken.scan following).foldl take (outer.pushEach (componentsEach items))
  | [], outer, _, following => by
      rw [componentsEach, Grouping.pushEach_nil, textEach, List.nil_append]
  | item :: rest, outer, notRound, following => by
      have afterItem : Grouping.IsNotIn .round (outer.pushEach item.components) := notRound
      rw [textEach, List.append_assoc, foldl_take item notRound, foldl_take_each rest afterItem,
        Grouping.pushEach_pushEach, componentsEach]

end

/-- The components of the text of items are those that the items say. -/
theorem ofText_textEach (items : List RuleItem) :
    Component.ofText (textEach items) = componentsEach items := by
  have outermost : Grouping.empty.IsNotIn .round := nofun
  have taken := foldl_take_each items outermost []
  rw [List.append_nil, SheetToken.scan_nil, List.foldl_nil] at taken
  rw [Component.ofText, Component.ofTokens, taken]
  simp [Grouping.finish, Grouping.closeAll, Grouping.pushEach, Grouping.empty]

mutual

theorem textEach_components : ∀ item : RuleItem, Component.textEach item.components = item.text
  | .declaration property value => by
      simp [components, text, Component.textEach, Component.text, Component.textEach_ofText]
  | .rule head items => by
      simp [components, text, Component.textEach, Component.text, Component.textEach_ofText,
        textEach_componentsEach items]

theorem textEach_componentsEach :
    ∀ items : List RuleItem, Component.textEach (componentsEach items) = textEach items
  | [] => rfl
  | item :: rest => by
      rw [componentsEach, Component.textEach_append, textEach_components item,
        textEach_componentsEach rest, textEach]

end

end RuleItem

end CssRescale
