import CssRescale.Proofs.Sheet.Groups
import CssRescale.Proofs.Sheet.Segments

/-!
Contract: a located value may be exchanged in its place.

What a walk does at a component depends on the components behind it only through the
colon that may come next and through the semicolons and curly blocks. So if the tokens of
a located value are exchanged for tokens of the same outline, the walk goes on as before,
finds the new value in the place of the old one, and finds everything else as it was.

Owns:
- components that look alike to a walk that comes to them;
- the walks through a rule, a sheet and a list of declarations after an exchange.
-/

set_option autoImplicit false

namespace CssRescale

open SheetToken (outline)

namespace Component

/-! ## What a walk sees of the components ahead -/

/-- A curly block comes before any semicolon. -/
theorem any_isCurlyBlock_eq (components : List Component) :
    (components.takeWhile fun next => !next.isSemicolon).any isCurlyBlock =
      ((turns components).head? == some false) := by
  induction components with
  | nil => rfl
  | cons component rest inductionHypothesis =>
      cases semicolon : component.isSemicolon with
      | true => simp [turns, isStructural, semicolon]
      | false =>
          cases curly : component.isCurlyBlock with
          | true => simp [turns, isStructural, semicolon, curly]
          | false => simpa [turns, isStructural, semicolon, curly] using inductionHypothesis

/-- Both lists of components make the same of a name before them. -/
structure LookAlike (components others : List Component) : Prop where
  turns : turns others = turns components
  colon : (afterColon? others).isSome = (afterColon? components).isSome
  declaration : makeDeclaration others = makeDeclaration components

theorem LookAlike.refl (components : List Component) : LookAlike components components :=
  ⟨rfl, rfl, rfl⟩

theorem afterColon?_cons (component : Component) (rest : List Component) :
    afterColon? (component :: rest) =
      if component.isTrivia then afterColon? rest
      else if component.isColon then some rest else none := by
  cases trivia : component.isTrivia <;> simp [afterColon?, trivia]

theorem makeDeclaration_cons (component : Component) (rest : List Component) :
    makeDeclaration (component :: rest) =
      if component.isTrivia then makeDeclaration rest
      else component.isColon && !((Component.turns rest).head? == some false) := by
  rw [makeDeclaration, afterColon?_cons]
  cases component.isTrivia with
  | true => rfl
  | false =>
      cases component.isColon with
      | true => exact congrArg (!·) (any_isCurlyBlock_eq rest)
      | false => rfl

theorem LookAlike.cons
    {first second : Component}
    {components others : List Component}
    (alike : LookAlike components others)
    (turns : Component.turns [second] = Component.turns [first])
    (trivia : second.isTrivia = first.isTrivia)
    (colon : second.isColon = first.isColon) :
    LookAlike (first :: components) (second :: others) where
  turns := by rw [turns_cons, turns, alike.turns, ← turns_cons]
  colon := by
    rw [afterColon?_cons, afterColon?_cons, trivia, colon]
    split
    · exact alike.colon
    · split <;> rfl
  declaration := by
    rw [makeDeclaration_cons, makeDeclaration_cons, trivia, colon, alike.turns,
      alike.declaration]

/-- Behind a colon only semicolons and curly blocks are seen. -/
theorem LookAlike.of_colon
    {token : SheetToken}
    {components others : List Component}
    (isColon : token.kind = .colon)
    (turns : Component.turns others = Component.turns components) :
    LookAlike (.single token :: components) (.single token :: others) := by
  have trivia : (single token).isTrivia = false := by simp [isTrivia, kind?, isColon]
  have colon : (single token).isColon = true := by simp [Component.isColon, kind?, isColon]
  refine ⟨by rw [turns_cons, turns, ← turns_cons], ?_, ?_⟩
  · rw [afterColon?_cons, afterColon?_cons, trivia, colon]
    rfl
  · rw [makeDeclaration_cons, makeDeclaration_cons, trivia, turns]
    rfl

theorem BodyState.step_of_lookAlike
    {components others : List Component}
    (alike : LookAlike components others)
    (state : BodyState)
    (token : SheetToken) :
    state.step token others = state.step token components := by
  have entered : BodyState.enter token.kind others = BodyState.enter token.kind components := by
    unfold BodyState.enter makeCustom
    rw [alike.declaration, alike.colon]
  cases state with
  | start => rw [BodyState.step, BodyState.step, entered]
  | _ => rfl

theorem SheetState.step_of_lookAlike
    {components others : List Component}
    (alike : LookAlike components others)
    (state : SheetState)
    (token : SheetToken) :
    state.step token others = state.step token components := by
  cases state with
  | start first =>
      have entered : SheetState.enter first token.kind others =
          SheetState.enter first token.kind components := by
        unfold SheetState.enter makeCustom
        rw [alike.colon]
      exact entered
  | _ => rfl

/-! ## Exchanges -/

/-- Behind a colon there are tokens that are written as the value. Any tokens with the
same outline may stand in their place: then the components look as before, and the walk
finds the new value among the same segments. -/
def Exchanges
    (inside : Option Bracket)
    (ends : Bool)
    (walk : List Component → List Segment)
    (tokens : List SheetToken)
    (components : List Component)
    (pending : Text)
    (front : List Segment)
    (property value : Text)
    (behind : List Segment) : Prop :=
  ∃ before colon within after,
    tokens = before ++ [colon] ++ (within ++ after) ∧ colon.kind = .colon ∧
      Segment.concat front = pending ++ SheetToken.concat (before ++ [colon]) ∧
      SheetToken.concat within = value ∧
      ∀ others, outline others = outline within →
        ∃ edited, Groups inside ends (before ++ [colon] ++ (others ++ after)) edited ∧
          LookAlike components edited ∧
          walk edited = front ++ .value property (SheetToken.concat others) :: behind

section

variable
  {inside : Option Bracket}
  {ends : Bool}
  {tokens : List SheetToken}
  {components : List Component}
  {front behind : List Segment}
  {property value : Text}

/-- One component in front of those with the value. -/
theorem Exchanges.cons
    {walk whole : List Component → List Segment}
    {pending wholePending : Text}
    {component : Component}
    (more : List SheetToken)
    (segments : List Segment)
    (exchanges : Exchanges inside ends walk tokens components pending front property value behind)
    (groups : ∀ {tokens components}, Groups inside ends tokens components →
      Groups inside ends (more ++ tokens) (component :: components))
    (walks : ∀ edited, LookAlike components edited →
      whole (component :: edited) = segments ++ walk edited)
    (written : Segment.concat segments ++ pending = wholePending ++ SheetToken.concat more) :
    Exchanges inside ends whole (more ++ tokens) (component :: components) wholePending
      (segments ++ front) property value behind := by
  obtain ⟨before, colon, within, after, rfl, isColon, text, valueText, exchange⟩ := exchanges
  refine ⟨more ++ before, colon, within, after, by simp, isColon, ?_, valueText, ?_⟩
  · rw [Segment.concat_append, text, ← List.append_assoc, written]
    simp
  · intro others same
    obtain ⟨edited, editedGroups, alike, walked⟩ := exchange others same
    refine ⟨component :: edited, ?_, alike.cons rfl rfl rfl, ?_⟩
    · have whole := groups editedGroups
      rw [← List.append_assoc, ← List.append_assoc more] at whole
      exact whole
    · rw [walks edited alike, walked, List.append_assoc]

/-- The contents of a block with the value. -/
theorem Exchanges.block
    {whole : List Component → List Segment}
    {outer : Option Bracket}
    {outerEnds : Bool}
    {bracket : Bracket}
    {opening : SheetToken}
    {closing pending : Text}
    {rest : List Component}
    {more : List SheetToken}
    {segments : List Segment}
    (exchanges : Exchanges inside ends (body .start) tokens components [] front property value
      behind)
    (groups : ∀ {tokens contents}, Groups inside ends tokens contents →
      Groups outer outerEnds (opening :: (tokens ++ more))
        (.block bracket opening.raw contents closing :: rest))
    (walks : ∀ contents, whole (.block bracket opening.raw contents closing :: rest) =
      .verbatim opening.raw :: (body .start contents ++ segments))
    (noPending : pending = []) :
    Exchanges outer outerEnds whole (opening :: (tokens ++ more))
      (.block bracket opening.raw components closing :: rest) pending
      (.verbatim opening.raw :: front) property value (behind ++ segments) := by
  obtain ⟨before, colon, within, after, rfl, isColon, text, valueText, exchange⟩ := exchanges
  refine ⟨opening :: before, colon, within, after ++ more, by simp, isColon, ?_, valueText, ?_⟩
  · rw [Segment.concat_cons, text, noPending]
    rfl
  · intro others same
    obtain ⟨edited, editedGroups, _, walked⟩ := exchange others same
    refine ⟨.block bracket opening.raw edited closing :: rest, ?_, ?_, ?_⟩
    · have whole := groups editedGroups
      simp only [List.append_assoc, List.cons_append] at whole ⊢
      exact whole
    · exact (LookAlike.refl rest).cons (turns_block_congr ..) rfl rfl
    · rw [walks edited, walked]
      simp

theorem concat_block
    {contentTokens : List SheetToken}
    {contents : List Component}
    (opening closing : SheetToken)
    (bracket : Bracket)
    (inner : Groups inside ends contentTokens contents) :
    SheetToken.concat (opening :: (contentTokens ++ [closing])) =
      (block bracket opening.raw contents closing.raw).text := by
  simp [text, inner.textEach_eq]

/-! ## Values -/

theorem isSemicolon_eq_false_iff :
    (∀ component ∈ components, component.isSemicolon = false) ↔ true ∉ turns components := by
  simp only [turns, List.mem_map, List.mem_filter, not_exists, not_and, Bool.not_eq_true]
  constructor
  · exact fun none component found => none component found.1
  · intro none component member
    cases semicolon : component.isSemicolon with
    | false => rfl
    | true =>
        have found := none component ⟨member, by simp [isStructural, semicolon]⟩
        rwa [semicolon] at found

/-- The components up to the first semicolon, with their tokens. -/
theorem Groups.exists_semicolon (groups : Groups inside ends tokens components) :
    (∀ component ∈ components, component.isSemicolon = false) ∨
      ∃ valueTokens semicolon restTokens parts rest,
        tokens = valueTokens ++ semicolon :: restTokens ∧
        components = parts ++ .single semicolon :: rest ∧
        semicolon.kind = .semicolon ∧ (∀ component ∈ parts, component.isSemicolon = false) ∧
        Groups inside false valueTokens parts ∧
        Groups inside ends (semicolon :: restTokens) (.single semicolon :: rest) := by
  induction groups with
  | nil => exact Or.inl nofun
  | @single _ _ token tokens components noOpening noClosing following inductionHypothesis =>
      by_cases semicolon : token.kind = .semicolon
      · exact Or.inr ⟨[], token, tokens, [], components, rfl, rfl, semicolon, nofun, .nil,
          .single noOpening noClosing following⟩
      have here : (Component.single token).isSemicolon = false := by
        simp [isSemicolon, kind?, semicolon]
      rcases inductionHypothesis with none | found
      · exact Or.inl (List.forall_mem_cons.mpr ⟨here, none⟩)
      · obtain ⟨valueTokens, mark, restTokens, parts, rest, rfl, rfl, isMark, none, groups,
          others⟩ := found
        exact Or.inr ⟨token :: valueTokens, mark, restTokens, .single token :: parts, rest, rfl,
          rfl, isMark, List.forall_mem_cons.mpr ⟨here, none⟩, .single noOpening noClosing groups,
          others⟩
  | @block _ _ bracket opening closing contentTokens tokens contents components isOpening isClosing
      inner _ _ inductionHypothesis =>
      have here : (Component.block bracket opening.raw contents closing.raw).isSemicolon = false :=
        rfl
      rcases inductionHypothesis with none | found
      · exact Or.inl (List.forall_mem_cons.mpr ⟨here, none⟩)
      · obtain ⟨valueTokens, mark, restTokens, parts, rest, rfl, rfl, isMark, none, groups,
          others⟩ := found
        exact Or.inr ⟨opening :: (contentTokens ++ closing :: valueTokens), mark, restTokens,
          _ :: parts, rest, by simp, rfl, isMark, List.forall_mem_cons.mpr ⟨here, none⟩,
          .block isOpening isClosing inner groups, others⟩
  | unclosed => exact Or.inl (List.forall_mem_cons.mpr ⟨rfl, nofun⟩)

/-- The components of a value, and those behind it, which end it at once. -/
theorem Groups.exists_value (groups : Groups inside ends tokens components) :
    ∃ valueTokens after valueEnds parts rest segments,
      tokens = valueTokens ++ after ∧ components = parts ++ rest ∧
        (∀ component ∈ parts, component.isSemicolon = false) ∧
        Groups inside valueEnds valueTokens parts ∧
        (∀ {others more}, Groups inside valueEnds others more →
          Groups inside ends (others ++ after) (more ++ rest)) ∧
        ∀ name taken, body (.value name taken) rest = .value name taken :: segments := by
  rcases groups.exists_semicolon with none | found
  · refine ⟨tokens, [], ends, components, [], [], by simp, by simp, none, groups, ?_, ?_⟩
    · intro others more edited
      rwa [List.append_nil, List.append_nil]
    · intro name taken
      rw [body]
      rfl
  · obtain ⟨valueTokens, mark, restTokens, parts, rest, rfl, rfl, isMark, none, value, others⟩ :=
      found
    refine ⟨valueTokens, mark :: restTokens, false, parts, .single mark :: rest,
      .verbatim mark.raw :: body .start rest, rfl, rfl, none, value,
      fun edited => edited.append others, ?_⟩
    intro name taken
    rw [body]
    simp only [BodyState.step, if_pos isMark]
    rfl

/-- The value behind the colon at hand. -/
theorem Groups.exchanges_colon
    {token : SheetToken}
    {name : Text}
    (groups : Groups inside ends tokens components)
    (isColon : token.kind = .colon)
    (found : body (.value name []) components = .value property value :: behind) :
    Exchanges inside ends (body (.property name)) (token :: tokens) (.single token :: components)
      [] [.verbatim token.raw] property value behind := by
  have single : ∀ {tokens components}, Groups inside ends tokens components →
      Groups inside ends (token :: tokens) (.single token :: components) :=
    .single (by rw [isColon]; nofun) (by rw [isColon]; nofun)
  obtain ⟨valueTokens, after, valueEnds, parts, rest, segments, rfl, rfl, none, valueGroups,
    appended, ended⟩ := groups.exists_value
  rw [body_value none, ended] at found
  obtain ⟨same, rfl⟩ := List.cons.inj found
  injection same with sameName sameText
  subst sameName
  refine ⟨[], token, valueTokens, after, rfl, isColon, by simp [Segment.text], ?_, ?_⟩
  · rw [← sameText, ← valueGroups.textEach_eq]
    rfl
  · intro others sameOutline
    obtain ⟨edited, editedGroups, sameTurns⟩ := valueGroups.exists_of_outline_eq sameOutline
    have editedNone : ∀ component ∈ edited, component.isSemicolon = false := by
      rw [isSemicolon_eq_false_iff, sameTurns, ← isSemicolon_eq_false_iff]
      exact none
    refine ⟨.single token :: (edited ++ rest), single (appended editedGroups), ?_, ?_⟩
    · apply LookAlike.of_colon isColon
      rw [turns_append, turns_append, sameTurns]
    · rw [body]
      simp only [BodyState.step, if_pos isColon]
      rw [body_value editedNone, ended, editedGroups.textEach_eq]
      rfl

/-! ## Blocks that are looked into -/

/-- A value among segments is behind a segment that is none. -/
theorem exists_of_verbatim
    {text : Text}
    {segments : List Segment}
    (found : .verbatim text :: segments = front ++ .value property value :: behind) :
    ∃ left, front = .verbatim text :: left ∧
      segments = left ++ .value property value :: behind := by
  cases front with
  | nil => cases (List.cons.inj found).1
  | cons first left =>
      obtain ⟨rfl, rest⟩ := List.cons.inj found
      exact ⟨left, rfl, rest⟩

/-- A value that is found around a block is in the block or behind it. -/
theorem exists_of_inside
    {opening closing : Text}
    {segments more : List Segment}
    (found : .verbatim opening :: (segments ++ .verbatim closing :: more) =
      front ++ .value property value :: behind) :
    (∃ left right, front = .verbatim opening :: left ∧
        segments = left ++ .value property value :: right ∧
        behind = right ++ .verbatim closing :: more) ∨
      ∃ left, front = .verbatim opening :: (segments ++ .verbatim closing :: left) ∧
        more = left ++ .value property value :: behind := by
  obtain ⟨left, rfl, rest⟩ := exists_of_verbatim found
  rcases List.append_eq_append_iff.mp rest with ⟨right, rfl, others⟩ | ⟨right, rfl, others⟩
  · obtain ⟨left, rfl, further⟩ := exists_of_verbatim others
    exact Or.inr ⟨left, rfl, further⟩
  · cases right with
    | nil => cases (List.cons.inj others).1
    | cons first right =>
        obtain ⟨rfl, rfl⟩ := List.cons.inj others
        exact Or.inl ⟨left, right, rfl, rfl, rfl⟩

section

variable
  {whole walk : List Component → List Segment}
  {opening closing : SheetToken}
  {contentTokens : List SheetToken}
  {contents : List Component}
  {pending : Text}

/-- A walk looks into a block and goes on behind it. -/
theorem exchanges_entered
    (isOpening : opening.kind = .opening .curly)
    (isClosing : closing.kind = .closing .curly)
    (inner : Groups (some .curly) false contentTokens contents)
    (groups : Groups inside ends tokens components)
    (walks : ∀ contents rest, whole (.block .curly opening.raw contents closing.raw :: rest) =
      .verbatim opening.raw :: (body .start contents ++ .verbatim closing.raw :: walk rest))
    (within : ∀ {front behind},
      body .start contents = front ++ .value property value :: behind →
      Exchanges (some .curly) false (body .start) contentTokens contents [] front property value
        behind)
    (later : ∀ {front}, walk components = front ++ .value property value :: behind →
      Exchanges inside ends walk tokens components [] front property value behind)
    (noPending : pending = [])
    (found : whole (.block .curly opening.raw contents closing.raw :: components) =
      front ++ .value property value :: behind) :
    Exchanges inside ends whole (opening :: (contentTokens ++ closing :: tokens))
      (.block .curly opening.raw contents closing.raw :: components) pending front property value
      behind := by
  rw [walks] at found
  rcases exists_of_inside found with ⟨left, right, rfl, inBlock, rfl⟩ | ⟨left, rfl, others⟩
  · exact (within inBlock).block (fun edited => .block isOpening isClosing edited groups)
      (fun edited => walks edited components) noPending
  · have segments : .verbatim opening.raw :: (body .start contents
        ++ .verbatim closing.raw :: left) = .verbatim opening.raw :: (body .start contents
          ++ [.verbatim closing.raw]) ++ left := by simp
    rw [segments, List.append_cons, ← List.cons_append]
    refine (later others).cons _ _ (.behindBlock isOpening isClosing inner) ?_ ?_
    · intro edited _
      rw [walks]
      simp
    · rw [concat_block opening closing .curly inner, noPending, Segment.concat_cons,
        Segment.concat_append, concat_body]
      simp [Segment.text, text, BodyState.pending]

/-- A walk looks into a block that is left open, and ends with it. -/
theorem exchanges_unclosed
    (isOpening : opening.kind = .opening .curly)
    (walks : ∀ contents, whole [.block .curly opening.raw contents []] =
      .verbatim opening.raw :: (body .start contents ++ [.verbatim []]))
    (within : ∀ {front behind},
      body .start contents = front ++ .value property value :: behind →
      Exchanges (some .curly) true (body .start) contentTokens contents [] front property value
        behind)
    (noPending : pending = [])
    (found : whole [.block .curly opening.raw contents []] =
      front ++ .value property value :: behind) :
    Exchanges inside true whole (opening :: contentTokens)
      [.block .curly opening.raw contents []] pending front property value behind := by
  rw [walks] at found
  rcases exists_of_inside found with ⟨left, right, rfl, inBlock, rfl⟩ | ⟨left, rfl, others⟩
  · rw [← List.append_nil contentTokens]
    refine (within inBlock).block ?_ walks noPending
    intro tokens contents edited
    rw [List.append_nil]
    exact .unclosed isOpening edited
  · cases left <;> cases others

end

/-! ## The walk through a rule -/

/-- A value that is not the one at hand is behind what a token adds. -/
theorem BodyState.exists_of_step
    {state : BodyState}
    {token : SheetToken}
    {rest : List Component}
    {segments : List Segment}
    (found : (state.step token rest).1 ++ segments = front ++ .value property value :: behind)
    (later : state.inValue = true → front ≠ []) :
    ∃ left, front = (state.step token rest).1 ++ left ∧
      segments = left ++ .value property value :: behind := by
  cases state with
  | value name taken =>
      have notFirst := later rfl
      by_cases semicolon : token.kind = .semicolon
      · simp only [BodyState.step, if_pos semicolon] at found ⊢
        cases front with
        | nil => exact absurd rfl notFirst
        | cons first front =>
            obtain ⟨rfl, others⟩ := List.cons.inj found
            obtain ⟨left, rfl, behind⟩ := exists_of_verbatim others
            exact ⟨left, rfl, behind⟩
      · simp only [BodyState.step, if_neg semicolon] at found ⊢
        exact ⟨front, rfl, found⟩
  | _ => exact exists_of_verbatim found

theorem BodyState.exists_of_skip
    {state : BodyState}
    {text : Text}
    {segments : List Segment}
    (found : (state.skip text).1 ++ segments = front ++ .value property value :: behind)
    (later : state.inValue = true → front ≠ []) :
    ∃ left, front = (state.skip text).1 ++ left ∧
      segments = left ++ .value property value :: behind ∧
      ((state.skip text).2.inValue = true → left ≠ []) := by
  cases state with
  | value => exact ⟨front, rfl, found, later⟩
  | _ =>
      obtain ⟨left, rfl, others⟩ := exists_of_verbatim found
      exact ⟨left, rfl, others, nofun⟩

/-- At the end of the components only the value at hand is added. -/
theorem body_nil_ne
    {state : BodyState}
    (later : state.inValue = true → front ≠ []) :
    body state [] ≠ front ++ .value property value :: behind := by
  intro found
  cases state with
  | value name taken =>
      have notFirst := later rfl
      rw [body] at found
      cases front with
      | nil => exact absurd rfl notFirst
      | cons first front => cases front <;> cases (List.cons.inj found).2
  | _ => cases front <;> cases found

theorem isCurlyBlock_block
    (bracket : Bracket)
    (opening closing : Text)
    (contents : List Component) :
    (block bracket opening contents closing).isCurlyBlock = decide (bracket = .curly) := by
  cases bracket <;> rfl

section

variable
  {state : BodyState}
  {opening closing : Text}

theorem body_entered
    (enters : state.entersBlock = true)
    (contents rest : List Component) :
    body state (.block .curly opening contents closing :: rest) =
      .verbatim opening :: (body .start contents ++ .verbatim closing :: body .start rest) := by
  rw [body]
  · rw [enters, isCurlyBlock_block, Component.inside]
    simp
  · exact fun _ => Component.noConfusion

theorem body_skipped
    {bracket : Bracket}
    (skips : ¬(state.entersBlock = true ∧ bracket = .curly))
    (contents rest : List Component) :
    body state (.block bracket opening contents closing :: rest) =
      (state.skip (block bracket opening contents closing).text).1
        ++ body (state.skip (block bracket opening contents closing).text).2 rest := by
  rw [body]
  · rw [isCurlyBlock_block, if_neg (by simpa using skips)]
  · exact fun _ => Component.noConfusion

end

/-- The value that comes next is that of the property before the colon at hand. -/
theorem BodyState.eq_property_of_step
    {state : BodyState}
    {token : SheetToken}
    {rest : List Component}
    (entered : (state.step token rest).2.inValue = true)
    (added : state.inValue = true → (state.step token rest).1 ≠ []) :
    ∃ name, state = .property name ∧ token.kind = .colon ∧
      (state.step token rest).2 = .value name [] := by
  cases state with
  | start =>
      have other := (BodyState.inValue_enter token.kind rest).1
      exact absurd (entered.symm.trans other) nofun
  | property name =>
      by_cases colon : token.kind = .colon
      · exact ⟨name, rfl, colon, by simp only [BodyState.step, if_pos colon]⟩
      · simp only [BodyState.step, if_neg colon] at entered
        cases entered
  | value name taken =>
      by_cases semicolon : token.kind = .semicolon
      · simp only [BodyState.step, if_pos semicolon] at entered
        cases entered
      · have nothing := added rfl
        simp only [BodyState.step, if_neg semicolon] at nothing
        exact absurd rfl nothing
  | statement =>
      simp only [BodyState.step] at entered
      split at entered <;> cases entered
  | «prelude» =>
      simp only [BodyState.step] at entered
      split at entered <;> cases entered

/-- Every value that a walk through a rule locates may be exchanged, except one that is
being taken when the walk comes. -/
theorem Groups.exchanges_body
    {state : BodyState}
    (groups : Groups inside ends tokens components)
    (found : body state components = front ++ .value property value :: behind)
    (later : state.inValue = true → front ≠ []) :
    Exchanges inside ends (body state) tokens components state.pending front property value
      behind := by
  induction groups generalizing state front behind with
  | nil => exact absurd found (body_nil_ne later)
  | @single inside ends token tokens components noOpening noClosing groups inductionHypothesis =>
      rw [body] at found
      obtain ⟨left, rfl, others⟩ := BodyState.exists_of_step found later
      have stepText := BodyState.concat_step state token components
      -- The value is the one behind the colon at hand, or is found later.
      by_cases current : (state.step token components).2.inValue = true ∧ left = []
      · obtain ⟨entered, rfl⟩ := current
        rw [List.append_nil] at later ⊢
        obtain ⟨name, rfl, isColon, next⟩ := BodyState.eq_property_of_step entered later
        rw [next] at others
        exact groups.exchanges_colon isColon others
      · have behindStep := inductionHypothesis others fun entered none => current ⟨entered, none⟩
        refine behindStep.cons [token] _ (.single noOpening noClosing) ?_ ?_
        · intro edited alike
          rw [body, BodyState.step_of_lookAlike alike]
        · rw [stepText]
          simp
  | @block inside ends bracket opening closing contentTokens tokens contents components isOpening
      isClosing inner groups contentsHypothesis inductionHypothesis =>
      by_cases enters : state.entersBlock = true ∧ bracket = .curly
      · obtain ⟨starts, rfl⟩ := enters
        exact exchanges_entered isOpening isClosing inner groups (body_entered starts)
          (fun found => contentsHypothesis found nofun) (fun found => inductionHypothesis found nofun)
          (BodyState.pending_of_entersBlock starts).1 found
      · rw [body_skipped enters] at found
        obtain ⟨left, rfl, others, behindFirst⟩ := BodyState.exists_of_skip found later
        rw [List.append_cons, ← List.cons_append]
        refine (inductionHypothesis others behindFirst).cons _ _
          (.behindBlock isOpening isClosing inner) ?_ ?_
        · intro edited _
          exact body_skipped enters contents edited
        · rw [BodyState.concat_skip, concat_block opening closing bracket inner]
  | @unclosed inside bracket opening tokens contents isOpening inner inductionHypothesis =>
      by_cases enters : state.entersBlock = true ∧ bracket = .curly
      · obtain ⟨starts, rfl⟩ := enters
        exact exchanges_unclosed isOpening (fun edited => body_entered starts edited [])
          (fun found => inductionHypothesis found nofun)
          (BodyState.pending_of_entersBlock starts).1 found
      · rw [body_skipped enters] at found
        obtain ⟨left, rfl, others, behindFirst⟩ := BodyState.exists_of_skip found later
        exact absurd others (body_nil_ne behindFirst)

/-! ## The walk through a sheet -/

section

variable
  {state : SheetState}
  {opening closing : Text}

theorem sheet_entered
    (enters : state.entersBlock = true)
    (contents rest : List Component) :
    sheet state (.block .curly opening contents closing :: rest) =
      .verbatim opening
        :: (body .start contents ++ .verbatim closing :: sheet (.start false) rest) := by
  rw [sheet]
  · rw [isCurlyBlock_block, enters, Component.inside]
    simp
  · exact fun _ => Component.noConfusion

/-- The state behind a block that is not looked into. -/
def SheetState.pass (state : SheetState) (bracket : Bracket) : SheetState :=
  if bracket = .curly then .start false else state.skip

theorem sheet_passed
    {bracket : Bracket}
    (skips : ¬(state.entersBlock = true ∧ bracket = .curly))
    (contents rest : List Component) :
    sheet state (.block bracket opening contents closing :: rest) =
      .verbatim (block bracket opening contents closing).text
        :: sheet (state.pass bracket) rest := by
  rw [sheet]
  · by_cases isCurly : bracket = .curly
    · have stays : state.entersBlock = false := by simpa [isCurly] using skips
      simp [isCurlyBlock_block, isCurly, stays, SheetState.pass]
    · simp [isCurlyBlock_block, isCurly, SheetState.pass]
  · exact fun _ => Component.noConfusion

end

/-- Every value that a walk through a sheet locates may be exchanged. -/
theorem Groups.exchanges_sheet
    {state : SheetState}
    (groups : Groups inside ends tokens components)
    (found : sheet state components = front ++ .value property value :: behind) :
    Exchanges inside ends (sheet state) tokens components [] front property value behind := by
  induction groups generalizing state front behind with
  | nil => cases front <;> cases found
  | @single inside ends token tokens components noOpening noClosing groups inductionHypothesis =>
      rw [sheet] at found
      obtain ⟨left, rfl, others⟩ := exists_of_verbatim found
      refine (inductionHypothesis others).cons [token] [.verbatim token.raw]
        (.single noOpening noClosing) ?_ ?_
      · intro edited alike
        rw [sheet, SheetState.step_of_lookAlike alike]
        rfl
      · simp [Segment.text]
  | @block inside ends bracket opening closing contentTokens tokens contents components isOpening
      isClosing inner groups _ inductionHypothesis =>
      by_cases enters : state.entersBlock = true ∧ bracket = .curly
      · obtain ⟨starts, rfl⟩ := enters
        exact exchanges_entered isOpening isClosing inner groups (sheet_entered starts)
          (fun found => inner.exchanges_body found (absurd · Bool.false_ne_true))
          inductionHypothesis rfl found
      · rw [sheet_passed enters] at found
        obtain ⟨left, rfl, others⟩ := exists_of_verbatim found
        rw [List.append_cons, ← List.cons_append]
        refine (inductionHypothesis others).cons _
          [.verbatim (Component.block bracket opening.raw contents closing.raw).text]
          (.behindBlock isOpening isClosing inner) ?_ ?_
        · intro edited _
          exact sheet_passed enters contents edited
        · rw [concat_block opening closing bracket inner]
          simp [Segment.text]
  | @unclosed inside bracket opening tokens contents isOpening inner _ =>
      by_cases enters : state.entersBlock = true ∧ bracket = .curly
      · obtain ⟨starts, rfl⟩ := enters
        exact exchanges_unclosed isOpening (fun edited => sheet_entered starts edited [])
          (fun found => inner.exchanges_body found (absurd · Bool.false_ne_true)) rfl found
      · rw [sheet_passed enters] at found
        obtain ⟨left, rfl, others⟩ := exists_of_verbatim found
        cases left <;> cases others

end

end Component

/-! ## Located values -/

namespace Segment

/-- Any located value may be exchanged: its tokens stand behind a colon, and tokens with
the same outline in their place give the same segments, with the new value. -/
def Exchangeable (locate : Text → List Segment) : Prop :=
  ∀ {source front property value behind},
    locate source = front ++ .value property value :: behind →
    ∃ before colon within after,
      SheetToken.scan source = before ++ [colon] ++ (within ++ after) ∧ colon.kind = .colon ∧
        concat front = SheetToken.concat (before ++ [colon]) ∧
        SheetToken.concat within = value ∧
        ∀ {edited others}, SheetToken.scan edited = before ++ [colon] ++ (others ++ after) →
          outline others = outline within →
          locate edited = front ++ .value property (SheetToken.concat others) :: behind

theorem exchangeable_of_walk
    (walk : List Component → List Segment)
    (exchanges : ∀ {tokens components front property value behind},
      Component.Groups none true tokens components →
      walk components = front ++ .value property value :: behind →
      Component.Exchanges none true walk tokens components [] front property value behind) :
    Exchangeable fun source => walk (Component.ofText source) := by
  intro source front property value behind found
  obtain ⟨before, colon, within, after, scanned, isColon, text, valueText, exchange⟩ :=
    exchanges (Component.groups_ofTokens (SheetToken.scan source)) found
  refine ⟨before, colon, within, after, scanned, isColon, text, valueText, ?_⟩
  intro edited others editedScanned same
  obtain ⟨components, groups, _, walked⟩ := exchange others same
  rw [← editedScanned] at groups
  rw [← walked, ← groups.ofTokens_eq]
  rfl

theorem exchangeable_ofSheet : Exchangeable ofSheet :=
  exchangeable_of_walk (Component.sheet (.start true)) fun groups found =>
    groups.exchanges_sheet found

theorem exchangeable_ofDeclarations : Exchangeable ofDeclarations :=
  exchangeable_of_walk (Component.body .start) fun groups found =>
    groups.exchanges_body found nofun

end Segment

end CssRescale
