import CssRescale.Proofs.Sheet.Blocks
import CssRescale.Sheet.Segment

/-!
Contract: segments are a sheet cut into parts, with every value in its place.

A walk through the components of a text gives segments that are written as the text.
A value comes directly after a colon and before a semicolon, before the bracket that
closes its block, or at the end of the text. A walk starts or ends a value at no other
place, whatever the blocks, and whether or not they are closed.

Owns:
- the text of segments, and of the segments of a sheet and of a list of declarations;
- the surroundings of the values among segments.
-/

set_option autoImplicit false

namespace CssRescale

namespace Segment

/-- The texts of segments, one after another. -/
def concat (segments : List Segment) : Text := segments.flatMap text

@[simp]
theorem concat_nil : concat [] = [] := rfl

@[simp]
theorem concat_cons (segment : Segment) (rest : List Segment) :
    concat (segment :: rest) = segment.text ++ concat rest := rfl

@[simp]
theorem concat_append (left right : List Segment) :
    concat (left ++ right) = concat left ++ concat right := List.flatMap_append

/-- A value may end before this text: at the end, a semicolon or a closing bracket. -/
def EndsValue : Text → Prop
  | [] => True
  | first :: _ => first = ';' ∨ first = '\x7d'

/-- Every value among the segments comes directly after a colon, or is the first segment
where one may come there, and ends where a value may end. The segments stand before
the text `following`. -/
def ArePlaced (following : Text) : Bool → List Segment → Prop
  | _, [] => True
  | _, .verbatim text :: rest => ArePlaced following (text == [':']) rest
  | opened, .value _ _ :: rest =>
      opened = true ∧ EndsValue (concat rest ++ following) ∧ ArePlaced following false rest

theorem ArePlaced.mono
    {following : Text}
    {segments : List Segment}
    (placed : ArePlaced following false segments)
    (opened : Bool) :
    ArePlaced following opened segments := by
  cases segments with
  | nil => exact True.intro
  | cons segment rest =>
      cases segment with
      | verbatim text => exact placed
      | value property text => exact absurd placed.1 Bool.false_ne_true

theorem ArePlaced.append
    {following : Text}
    {opened : Bool}
    {left right : List Segment}
    (first : ArePlaced (concat right ++ following) opened left)
    (second : ArePlaced following false right) :
    ArePlaced following opened (left ++ right) := by
  induction left generalizing opened with
  | nil => exact second.mono opened
  | cons segment rest inductionHypothesis =>
      cases segment with
      | verbatim text => exact inductionHypothesis first
      | value property text =>
          obtain ⟨introduced, ends, others⟩ := first
          refine ⟨introduced, ?_, inductionHypothesis others⟩
          show EndsValue (concat (rest ++ right) ++ following)
          rw [concat_append, List.append_assoc]
          exact ends

end Segment

open Segment (concat ArePlaced EndsValue)

namespace Component

open SheetToken (IsMarked)

/-! ## States of the contents of a rule -/

/-- The text of a value that has been taken but not yet been given as a segment. -/
def BodyState.pending : BodyState → Text
  | .value _ taken => taken
  | _ => []

/-- Is a value being taken? -/
def BodyState.inValue : BodyState → Bool
  | .value _ _ => true
  | _ => false

theorem BodyState.inValue_enter (kind : SheetTokenKind) (rest : List Component) :
    (BodyState.enter kind rest).inValue = false ∧ (BodyState.enter kind rest).pending = [] := by
  unfold BodyState.enter
  split
  · exact ⟨rfl, rfl⟩
  · exact ⟨rfl, rfl⟩
  · exact ⟨rfl, rfl⟩
  · exact ⟨rfl, rfl⟩
  next =>
    split
    · exact ⟨rfl, rfl⟩
    · split <;> exact ⟨rfl, rfl⟩
  · exact ⟨rfl, rfl⟩

theorem BodyState.pending_of_entersBlock
    {state : BodyState}
    (enters : state.entersBlock = true) :
    state.pending = [] ∧ state.inValue = false := by
  cases state with
  | start => exact ⟨rfl, rfl⟩
  | «prelude» => exact ⟨rfl, rfl⟩
  | _ => cases enters

theorem BodyState.concat_step (state : BodyState) (token : SheetToken) (rest : List Component) :
    concat (state.step token rest).1 ++ (state.step token rest).2.pending =
      state.pending ++ token.raw := by
  cases state with
  | start =>
      have entered := (BodyState.inValue_enter token.kind rest).2
      show concat [.verbatim token.raw] ++ (BodyState.enter token.kind rest).pending = token.raw
      rw [entered]
      simp [Segment.text]
  | property name =>
      simp only [BodyState.step]
      split <;> simp [Segment.text, BodyState.pending]
  | value name taken =>
      simp only [BodyState.step]
      split <;> simp [Segment.text, BodyState.pending]
  | statement =>
      simp only [BodyState.step]
      split <;> simp [Segment.text, BodyState.pending]
  | «prelude» =>
      simp only [BodyState.step]
      split <;> simp [Segment.text, BodyState.pending]

theorem BodyState.concat_skip (state : BodyState) (text : Text) :
    concat (state.skip text).1 ++ (state.skip text).2.pending = state.pending ++ text := by
  cases state <;> simp [BodyState.skip, Segment.text, BodyState.pending]

theorem BodyState.concat_finish (state : BodyState) : concat state.finish = state.pending := by
  cases state <;> simp [BodyState.finish, Segment.text, BodyState.pending]

/-! ## The text of segments -/

mutual

/-- The segments of the contents of a rule are written as the contents. -/
theorem concat_body :
    ∀ (components : List Component) (state : BodyState),
      concat (body state components) = state.pending ++ textEach components
  | [], state => by
      simp only [body, BodyState.concat_finish, textEach, List.append_nil]
  | .single token :: rest, state => by
      rw [body, Segment.concat_append, concat_body rest, ← List.append_assoc,
        BodyState.concat_step, List.append_assoc]
      rfl
  | .block bracket opening contents closing :: rest, state => by
      have inner := concat_inside (.block bracket opening contents closing)
      rw [body]
      · split
        next enters =>
          rw [Bool.and_eq_true] at enters
          rw [Segment.concat_append, concat_body rest, inner,
            (BodyState.pending_of_entersBlock enters.1).1]
          rfl
        next =>
          rw [Segment.concat_append, concat_body rest, ← List.append_assoc,
            BodyState.concat_skip, List.append_assoc]
          rfl
      · nofun

theorem concat_inside : ∀ component : Component, concat component.inside = component.text
  | .single token => by simp [inside, text, Segment.text]
  | .block bracket opening contents closing => by
      have contentsText := concat_body contents .start
      simp [inside, text, Segment.text, contentsText, BodyState.pending]

end

/-- The segments of the rules of a sheet are written as the rules. -/
theorem concat_sheet (components : List Component) (state : SheetState) :
    concat (sheet state components) = textEach components := by
  induction components generalizing state with
  | nil => rfl
  | cons component rest inductionHypothesis =>
      cases component with
      | single token => simp [sheet, inductionHypothesis, Segment.text, textEach, text]
      | block bracket opening contents closing =>
          have inner := concat_inside (.block bracket opening contents closing)
          rw [sheet]
          · split
            · split
              · simp [inductionHypothesis, inner, textEach]
              · simp [inductionHypothesis, Segment.text, textEach]
            · simp [inductionHypothesis, Segment.text, textEach]
          · nofun

/-- A value takes all components before a semicolon. -/
theorem body_value
    {components : List Component}
    (noSemicolon : ∀ component ∈ components, component.isSemicolon = false)
    (name taken : Text)
    (rest : List Component) :
    body (.value name taken) (components ++ rest) =
      body (.value name (taken ++ textEach components)) rest := by
  induction components generalizing taken with
  | nil => rw [List.nil_append, textEach, List.append_nil]
  | cons component others inductionHypothesis =>
      have here := noSemicolon component List.mem_cons_self
      have later := inductionHypothesis fun other member =>
        noSemicolon other (List.mem_cons_of_mem component member)
      cases component with
      | single token =>
          have noSemicolon : token.kind ≠ .semicolon := by simpa [isSemicolon, kind?] using here
          rw [List.cons_append, body]
          simp only [BodyState.step, if_neg noSemicolon]
          rw [later, textEach, text, List.nil_append, List.append_assoc]
      | block bracket opening contents closing =>
          rw [List.cons_append, body]
          · simp only [BodyState.entersBlock, BodyState.skip, Bool.false_and]
            rw [if_neg Bool.false_ne_true, List.nil_append, later, textEach, List.append_assoc]
          · exact fun _ => Component.noConfusion

/-! ## The places of values -/

theorem BodyState.arePlaced_step
    {state : BodyState}
    {token : SheetToken}
    {rest : List Component}
    {following : Text}
    {segments : List Segment}
    (marked : token.IsMarked)
    (placed : ArePlaced following (state.step token rest).2.inValue segments) :
    ArePlaced following state.inValue ((state.step token rest).1 ++ segments) := by
  cases state with
  | start =>
      simp only [BodyState.step, (BodyState.inValue_enter token.kind rest).1] at placed
      exact placed.mono _
  | property name =>
      simp only [BodyState.step] at placed ⊢
      split at placed
      next colon =>
        have written : token.raw = [':'] := marked.mark ':' (by rw [colon]; rfl)
        show ArePlaced following (token.raw == [':']) segments
        rw [written]
        exact placed
      next => exact placed.mono _
  | value name taken =>
      simp only [BodyState.step] at placed ⊢
      by_cases semicolon : token.kind = .semicolon
      · have written : token.raw = [';'] := marked.mark ';' (by rw [semicolon]; rfl)
        simp only [semicolon, if_true] at placed ⊢
        refine ⟨rfl, ?_, placed.mono _⟩
        show EndsValue (token.raw ++ concat segments ++ following)
        rw [written]
        exact Or.inl rfl
      · simp only [semicolon, if_false, List.nil_append] at placed ⊢
        exact placed
  | statement =>
      simp only [BodyState.step] at placed ⊢
      split at placed <;> exact placed.mono _
  | «prelude» =>
      simp only [BodyState.step] at placed ⊢
      split at placed <;> exact placed.mono _

theorem BodyState.arePlaced_skip
    {state : BodyState}
    {text following : Text}
    {segments : List Segment}
    (placed : ArePlaced following (state.skip text).2.inValue segments) :
    ArePlaced following state.inValue ((state.skip text).1 ++ segments) := by
  cases state with
  | value name taken => exact placed
  | _ => exact placed.mono _

theorem BodyState.arePlaced_finish
    {following : Text}
    (ends : EndsValue following)
    (state : BodyState) :
    ArePlaced following state.inValue state.finish := by
  cases state with
  | value name taken => exact ⟨rfl, ends, True.intro⟩
  | _ => exact True.intro

/-- A value may end where the contents of a curly block end. -/
theorem endsValue_of_closing
    {closing following : Text}
    (closed : closing = [Bracket.curly.closingChar] ∨ closing ++ following = []) :
    EndsValue (closing ++ following) := by
  rcases closed with rfl | nothing
  · exact Or.inr rfl
  · rw [nothing]
    exact True.intro

mutual

/-- The values in the contents of a rule are in their places. -/
theorem arePlaced_body :
    ∀ (components : List Component) (state : BodyState) (following : Text),
      AreWellFormedBefore following components → EndsValue following →
      ArePlaced following state.inValue (body state components)
  | [], state, following, _, ends => BodyState.arePlaced_finish ends state
  | .single token :: rest, state, following, wellFormed, ends => by
      rw [body]
      apply BodyState.arePlaced_step wellFormed.1
      exact arePlaced_body rest _ following wellFormed.2 ends
  | .block bracket opening contents closing :: rest, state, following, wellFormed, ends => by
      have others := fun state => arePlaced_body rest state following wellFormed.2 ends
      rw [body]
      · split
        next enters =>
          rw [Bool.and_eq_true] at enters
          have inner := arePlaced_inside (.block bracket opening contents closing)
            (textEach rest ++ following) wellFormed.1 enters.2
          rw [(BodyState.pending_of_entersBlock enters.1).2]
          apply ArePlaced.append _ (others .start)
          rw [concat_body]
          exact inner
        next => exact BodyState.arePlaced_skip (others _)
      · nofun

theorem arePlaced_inside :
    ∀ (component : Component) (following : Text),
      component.IsWellFormedBefore following → component.isCurlyBlock = true →
      ArePlaced following false component.inside
  | .single token, following, _, _ => True.intro
  | .block .curly opening contents closing, following, wellFormed, _ => by
      have inner := arePlaced_body contents .start (closing ++ following) wellFormed.2
        (endsValue_of_closing wellFormed.1)
      show ArePlaced following (opening == [':']) (body .start contents ++ [.verbatim closing])
      have last : ArePlaced following false [.verbatim closing] := True.intro
      apply ArePlaced.mono
      apply ArePlaced.append _ last
      simp only [Segment.concat_cons, Segment.concat_nil, List.append_nil, Segment.text]
      exact inner

end

/-- The values in the rules of a sheet are in their places. -/
theorem arePlaced_sheet
    {components : List Component}
    (wellFormed : AreWellFormedBefore [] components)
    (state : SheetState) :
    ArePlaced [] false (sheet state components) := by
  induction components generalizing state with
  | nil => exact True.intro
  | cons component rest inductionHypothesis =>
      have others := fun state => inductionHypothesis wellFormed.2 state
      cases component with
      | single token =>
          rw [sheet]
          exact (others _).mono _
      | block bracket opening contents closing =>
          rw [sheet]
          · split
            next curly =>
              apply ArePlaced.append _ (others (.start false))
              rw [concat_sheet]
              split
              · exact arePlaced_inside _ _ wellFormed.1 curly
              · exact True.intro
            next => exact (others _).mono _
          · nofun

end Component

/-! ## Segments of texts -/

namespace Segment

theorem concat_ofSheet (source : Text) : concat (ofSheet source) = source := by
  rw [ofSheet, Component.concat_sheet, Component.textEach_ofText]

theorem concat_ofDeclarations (source : Text) : concat (ofDeclarations source) = source := by
  rw [ofDeclarations, Component.concat_body, Component.textEach_ofText]
  rfl

theorem arePlaced_ofSheet (source : Text) : ArePlaced [] false (ofSheet source) :=
  Component.arePlaced_sheet (Component.areWellFormedBefore_ofText source) _

theorem arePlaced_ofDeclarations (source : Text) : ArePlaced [] false (ofDeclarations source) :=
  Component.arePlaced_body _ .start [] (Component.areWellFormedBefore_ofText source) True.intro

end Segment

end CssRescale
