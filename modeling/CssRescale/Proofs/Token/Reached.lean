import CssRescale.Proofs.Token.Run
import Mathlib.Data.List.Induction

/-!
Contract: places that a scan reaches.

A scan reaches every place between two of its tokens, and from there it goes on without
what stands before. What it keeps is its state, and that follows from the last two tokens.

Owns:
- the relation `Token.Reaches` between a text and the places a scan of it reaches;
- the places between the tokens of a text;
- the state at a place by the tokens before it.
-/

set_option autoImplicit false

namespace CssRescale.Token

/-- A scan that starts with a text in a state has read these tokens when it stands, in the
other state, before the text that is left. -/
inductive Reaches (start : UrlState) (source : Text) : List Token → UrlState → Text → Prop where
  | start : Reaches start source [] start source
  | step {before : List Token} {state : UrlState} {rest left : Text} {token : Token}
      (reaches : Reaches start source before state rest)
      (reading : next? state rest = some (token, left)) :
      Reaches start source (before ++ [token]) (state.after token left) left

section

variable
  {start state : UrlState}
  {source left : Text}
  {before : List Token}

/-- What is scanned from the place on follows what was read. -/
theorem Reaches.scanFrom_eq (reaches : Reaches start source before state left) :
    scanFrom start source = before ++ scanFrom state left := by
  induction reaches with
  | start => rfl
  | step _ reading inductionHypothesis =>
      rw [inductionHypothesis, scanFrom_of_next? reading, List.append_assoc]
      rfl

theorem next?_of_scanFrom_eq_cons
    {token : Token}
    {after : List Token}
    (scanned : scanFrom state source = token :: after) :
    next? state source = some (token, concat after) ∧
      scanFrom (state.after token (concat after)) (concat after) = after := by
  have nonempty : source ≠ [] := by
    rintro rfl
    rw [scanFrom_nil] at scanned
    exact absurd scanned nofun
  obtain ⟨first, left, reading⟩ := exists_next? state nonempty
  rw [scanFrom_of_next? reading] at scanned
  obtain ⟨rfl, rest⟩ := List.cons.inj scanned
  have left_eq : left = concat after := by rw [← rest, concat_scanFrom]
  subst left_eq
  exact ⟨reading, rest⟩

/-- Every place between two tokens is reached. -/
theorem exists_reaches
    {after : List Token}
    (split : scanFrom start source = before ++ after) :
    ∃ state, Reaches start source before state (concat after) ∧
      scanFrom state (concat after) = after := by
  induction before using List.reverseRecOn generalizing after with
  | nil =>
      rw [List.nil_append] at split
      rw [← split, concat_scanFrom]
      exact ⟨start, .start, rfl⟩
  | append_singleton before token inductionHypothesis =>
      rw [List.append_assoc, List.singleton_append] at split
      obtain ⟨state, reaches, scanned⟩ := inductionHypothesis split
      obtain ⟨reading, rest⟩ := next?_of_scanFrom_eq_cons scanned
      exact ⟨_, .step reaches reading, rest⟩

/-- A token of a text is read at the place before it. -/
theorem exists_reaches_next?
    {token : Token}
    {after : List Token}
    (split : scanFrom start source = before ++ token :: after) :
    ∃ state, Reaches start source before state (token.text ++ concat after) ∧
      next? state (token.text ++ concat after) = some (token, concat after) := by
  obtain ⟨state, reaches, scanned⟩ := exists_reaches split
  exact ⟨state, reaches, (next?_of_scanFrom_eq_cons scanned).1⟩

end

/-! ## The state at a place -/

/-- The last token is the name of a URL. -/
def EndsInUrl (before : List Token) : Prop :=
  ∃ front name, before = front ++ [word name] ∧ Text.equalIgnoringCase name urlName = true

/-- The last token is a parenthesis directly behind the name of a URL. -/
def EndsInUrlCall (before : List Token) : Prop :=
  ∃ front, before = front ++ [openParen] ∧ EndsInUrl front

theorem not_endsInUrl_nil : ¬EndsInUrl [] := by
  rintro ⟨front, name, shape, -⟩
  simp at shape

theorem not_endsInUrlCall_nil : ¬EndsInUrlCall [] := by
  rintro ⟨front, shape, -⟩
  simp at shape

theorem endsInUrl_append_iff (before : List Token) (token : Token) :
    EndsInUrl (before ++ [token]) ↔
      ∃ name, token = word name ∧ Text.equalIgnoringCase name urlName = true := by
  constructor
  · rintro ⟨front, name, shape, isUrl⟩
    exact ⟨name, (List.cons.inj (List.append_inj' shape rfl).2).1, isUrl⟩
  · rintro ⟨name, rfl, isUrl⟩
    exact ⟨before, name, rfl, isUrl⟩

theorem endsInUrlCall_append_iff (before : List Token) (token : Token) :
    EndsInUrlCall (before ++ [token]) ↔ token = openParen ∧ EndsInUrl before := by
  constructor
  · rintro ⟨front, shape, isUrl⟩
    obtain ⟨rfl, same⟩ := List.append_inj' shape rfl
    exact ⟨(List.cons.inj same).1, isUrl⟩
  · rintro ⟨rfl, isUrl⟩
    exact ⟨before, rfl, isUrl⟩

section

variable
  {source left : Text}
  {state : UrlState}
  {before : List Token}

theorem after_eq_named_iff (token : Token) :
    state.after token left = .named ↔
      (∃ name, token = word name ∧ Text.equalIgnoringCase name urlName = true) ∧
        startsWithParen left = true := by
  cases token with
  | word raw =>
      rw [UrlState.after]
      split
      case isTrue both =>
        obtain ⟨isUrl, paren⟩ := Bool.and_eq_true_iff.mp both
        exact iff_of_true rfl ⟨⟨raw, rfl, isUrl⟩, paren⟩
      case isFalse other =>
        refine iff_of_false nofun ?_
        rintro ⟨⟨name, same, isUrl⟩, paren⟩
        cases same
        exact other (Bool.and_eq_true_iff.mpr ⟨isUrl, paren⟩)
  | openParen =>
      rw [UrlState.after]
      split <;> exact iff_of_false nofun nofun
  | _ => exact iff_of_false nofun nofun

theorem after_eq_opened_iff (token : Token) :
    state.after token left = .opened ↔ token = openParen ∧ state = .named := by
  cases token with
  | word raw =>
      rw [UrlState.after]
      split <;> exact iff_of_false nofun nofun
  | openParen =>
      rw [UrlState.after]
      split
      case isTrue named => exact iff_of_true rfl ⟨rfl, named⟩
      case isFalse other => exact iff_of_false nofun fun both => other both.2
  | _ => exact iff_of_false nofun nofun

/-- The state is that behind the name of a URL exactly if the last token is such a name and
a parenthesis follows. -/
theorem Reaches.named_iff (reaches : Reaches .outside source before state left) :
    state = .named ↔ EndsInUrl before ∧ startsWithParen left = true := by
  cases reaches with
  | start => exact iff_of_false nofun fun both => not_endsInUrl_nil both.1
  | step reaches reading => rw [after_eq_named_iff, endsInUrl_append_iff]

/-- The body of a URL is looked for exactly behind the name of a URL and its parenthesis. -/
theorem Reaches.opened_iff (reaches : Reaches .outside source before state left) :
    state = .opened ↔ EndsInUrlCall before := by
  cases reaches with
  | start => exact iff_of_false nofun not_endsInUrlCall_nil
  | step reaches reading =>
      rw [after_eq_opened_iff, endsInUrlCall_append_iff]
      apply and_congr_right
      rintro rfl
      have paren := congrArg startsWithParen (next?_append reading)
      rw [reaches.named_iff, ← paren]
      exact and_iff_left rfl

end

end CssRescale.Token
