import CssRescale.Proofs.Sheet.Inert

/-!
Contract: the tokens of an inert text give a sheet no structure.

The structure of a sheet is in its semicolons and brackets. An inert text has tokens
without structure, the last of which may take a name behind it; if a parenthesis follows
this name, one bracket is opened, in the same token or in the next one. So a run of
tokens that comes to an inert text leaves it with an outline and at a place that depend
only on what follows it.

Owns:
- the outline of tokens;
- runs of tokens from one place of a text to another, and what two such runs say about
  the tokens of the whole text;
- the tokens of inert texts.
-/

set_option autoImplicit false

namespace CssRescale

/-- The kind, if it gives a sheet its structure. -/
def SheetTokenKind.structural? (kind : SheetTokenKind) : Option SheetTokenKind :=
  if kind.isPlain then none else some kind

namespace SheetToken

open Sheet

/-! ## Outlines -/

/-- The semicolons and brackets among tokens, in order. -/
def outline (tokens : List SheetToken) : List SheetTokenKind :=
  tokens.filterMap fun token => token.kind.structural?

@[simp]
theorem outline_nil : outline [] = [] := rfl

@[simp]
theorem outline_append (left right : List SheetToken) :
    outline (left ++ right) = outline left ++ outline right := List.filterMap_append

theorem outline_cons (token : SheetToken) (tokens : List SheetToken) :
    outline (token :: tokens) = outline [token] ++ outline tokens :=
  outline_append [token] tokens

theorem outline_of_isPlain {token : SheetToken} (plain : token.kind.isPlain = true) :
    outline [token] = [] := by
  simp [outline, SheetTokenKind.structural?, plain]

/-! ## Runs of tokens -/

/-- From the first text a run of tokens with the given outline leads to the second. All
of them start before the text `rest`, except a parenthesis that may open directly at the
end of the run, and the run ends in `rest`. None of them is a colon. -/
inductive Passes (rest : Text) : Text → List SheetTokenKind → Text → Prop where
  | done {left : Text}
      (within : left.length ≤ rest.length) :
      Passes rest left [] left
  | parenthesis {left : Text}
      (within : left.length < rest.length) :
      Passes rest ('(' :: left) [.opening .round] left
  | token {first : Char} {tail left : Text} {kinds : List SheetTokenKind}
      (outside : rest.length < (first :: tail).length)
      (noColon : (nextOf first tail).1.kind ≠ .colon)
      (passes : Passes rest (nextOf first tail).2 kinds left) :
      Passes rest (first :: tail) (outline [(nextOf first tail).1] ++ kinds) left

section

variable
  {rest text left stop : Text}
  {kinds : List SheetTokenKind}

/-- A token without structure in front of a run. -/
theorem Passes.of_isPlain
    {first : Char}
    {tail : Text}
    {result : SheetToken × Text}
    (outside : rest.length < (first :: tail).length)
    (chosen : nextOf first tail = result)
    (noColon : result.1.kind ≠ .colon)
    (plain : result.1.kind.isPlain = true)
    (passes : Passes rest result.2 kinds left) :
    Passes rest (first :: tail) kinds left := by
  have run : Passes rest (first :: tail) (outline [(nextOf first tail).1] ++ kinds) left := by
    apply Passes.token outside
    · rw [chosen]
      exact noColon
    · rw [chosen]
      exact passes
  rwa [chosen, outline_of_isPlain plain] at run

theorem length_le_of_scan_eq
    {tokens : List SheetToken}
    (scanned : scan text = tokens ++ scan stop) :
    stop.length ≤ text.length := by
  have whole := congrArg concat scanned
  rw [concat_append, concat_scan, concat_scan] at whole
  rw [whole, List.length_append]
  exact Nat.le_add_left _ _

theorem scan_cons (first : Char) (tail : Text) :
    scan (first :: tail) = (nextOf first tail).1 :: scan (nextOf first tail).2 := by
  rw [scan]

/-- The first token is before a cut that is not at the start. -/
theorem exists_of_scan_cons
    {first : Char}
    {tail : Text}
    {tokens : List SheetToken}
    (later : stop ≠ first :: tail)
    (scanned : scan (first :: tail) = tokens ++ scan stop) :
    ∃ others, tokens = (nextOf first tail).1 :: others ∧
      scan (nextOf first tail).2 = others ++ scan stop := by
  cases tokens with
  | nil =>
      have same := congrArg concat scanned
      rw [List.nil_append, concat_scan, concat_scan] at same
      exact absurd same.symm later
  | cons token others =>
      rw [scan_cons] at scanned
      obtain ⟨rfl, behind⟩ := List.cons.inj scanned
      exact ⟨others, rfl, behind⟩

/-- Where the scanned text is cut between tokens behind a run, the run is a part of what
is before the cut. -/
theorem Passes.exists_scan_eq
    {tokens : List SheetToken}
    (passes : Passes rest text kinds left)
    (within : stop.length ≤ rest.length)
    (noCall : Text.headIs (· == '(') stop = false)
    (scanned : scan text = tokens ++ scan stop) :
    ∃ others, scan left = others ++ scan stop ∧ outline tokens = kinds ++ outline others := by
  induction passes generalizing tokens with
  | done => exact ⟨tokens, scanned, rfl⟩
  | @parenthesis left _ =>
      have opening : nextOf '(' left = (⟨.opening .round, ['(']⟩, left) :=
        (Starts.single ⟨rfl, rfl, rfl, rfl⟩ rfl).nextOf_eq
      have later : stop ≠ '(' :: left := by
        rintro rfl
        cases noCall
      obtain ⟨others, rfl, behind⟩ := exists_of_scan_cons later scanned
      rw [opening] at behind ⊢
      exact ⟨others, behind, rfl⟩
  | @token first tail left kinds outside _ _ inductionHypothesis =>
      have later : stop ≠ first :: tail := by
        rintro rfl
        omega
      obtain ⟨others, rfl, rest⟩ := exists_of_scan_cons later scanned
      obtain ⟨behind, cut, same⟩ := inductionHypothesis rest
      exact ⟨behind, cut, by rw [outline_cons, same, List.append_assoc]⟩

/-- The other direction: what is cut behind a run is cut with the run before it. -/
theorem Passes.exists_of_scan_eq
    {others : List SheetToken}
    (passes : Passes rest text kinds left)
    (scanned : scan left = others ++ scan stop) :
    ∃ tokens, scan text = tokens ++ scan stop ∧ outline tokens = kinds ++ outline others := by
  induction passes with
  | done => exact ⟨others, scanned, rfl⟩
  | @parenthesis left _ =>
      have opening : nextOf '(' left = (⟨.opening .round, ['(']⟩, left) :=
        (Starts.single ⟨rfl, rfl, rfl, rfl⟩ rfl).nextOf_eq
      exact ⟨⟨.opening .round, ['(']⟩ :: others, by rw [scan_cons, opening, scanned]; rfl, rfl⟩
  | @token first tail left kinds _ _ _ inductionHypothesis =>
      obtain ⟨tokens, cut, same⟩ := inductionHypothesis scanned
      refine ⟨(nextOf first tail).1 :: tokens, by rw [scan_cons, cut]; rfl, ?_⟩
      rw [outline_cons, same, List.append_assoc]

/-- Where the scanned text is cut before the end of a run, no token before the cut is a
colon. -/
theorem Passes.noColon_of_scan_eq
    {tokens : List SheetToken}
    (passes : Passes rest text kinds left)
    (outside : rest.length < stop.length)
    (scanned : scan text = tokens ++ scan stop) :
    ∀ token ∈ tokens, token.kind ≠ .colon := by
  have longer := length_le_of_scan_eq scanned
  induction passes generalizing tokens with
  | done => omega
  | parenthesis =>
      rw [List.length_cons] at longer
      omega
  | @token first tail left kinds _ noColon _ inductionHypothesis =>
      intro token member
      cases tokens with
      | nil => cases member
      | cons head others =>
          rw [scan_cons] at scanned
          obtain ⟨rfl, behind⟩ := List.cons.inj scanned
          rcases List.mem_cons.mp member with rfl | member
          · exact noColon
          · exact inductionHypothesis behind (length_le_of_scan_eq behind) token member

/-! ## The tokens of inert texts -/

/-- What stands behind a name at the start of the text: an opening parenthesis is passed. -/
def afterName (text : Text) : List SheetTokenKind × Text :=
  match (takeName text).2.2 with
  | '(' :: left => ([.opening .round], left)
  | left => ([], left)

/-- The run of tokens that a name at the start of `rest` ends. -/
def PassesName (rest text : Text) : Prop :=
  Passes rest text (afterName rest).1 (afterName rest).2

theorem length_takeName_le (text : Text) : (takeName text).2.2.length ≤ text.length := by
  have whole := congrArg List.length (takeName_append text)
  rw [List.length_append] at whole
  omega

theorem passesName_takeName (rest : Text) : PassesName rest (takeName rest).2.2 := by
  have within := length_takeName_le rest
  unfold PassesName afterName
  generalize (takeName rest).2.2 = left at within
  split
  next left => exact .parenthesis within
  next => exact .done within

/-- A name with a letter that does not stand in `url` is not that of a URL. -/
theorem equalIgnoringCase_url_eq_false
    {name : Text}
    {c : Char}
    (member : c ∈ name)
    (settled : settles c = true) :
    Text.equalIgnoringCase name ['u', 'r', 'l'] = false := by
  rw [← Bool.not_eq_true]
  intro url
  have lower : c.toLower ∈ ['u', 'r', 'l'] := by
    have lowers : name.map Char.toLower = ['u', 'r', 'l'] := eq_of_beq url
    rw [← lowers]
    exact List.mem_map_of_mem member
  simp only [List.mem_cons, List.not_mem_nil, or_false] at lower
  simp only [settles, Bool.and_eq_true, Bool.not_eq_true', Bool.or_eq_false_iff,
    beq_eq_false_iff_ne] at settled
  rcases lower with u | r | l
  · exact settled.2.1.1 u
  · exact settled.2.1.2 r
  · exact settled.2.2 l

/-- A name that comes to an inert text leads into `rest`, if what it leaves of the inert
text does. -/
theorem passesName_of_name
    {first : Char}
    {tail : Text}
    (outside : rest.length < (first :: tail).length)
    (chosen : nextOf first tail = readName (first :: tail))
    (across : NameAcross rest (takeName (first :: tail)))
    (passes : ∀ left, InertBefore rest left → left.length < (first :: tail).length →
      PassesName rest left) :
    PassesName rest (first :: tail) := by
  have shorter := nextOf_length_lt first tail
  generalize taken : takeName (first :: tail) = result at across
  cases across with
  | @within name raw left inert =>
      have noCall : Text.headIs (· == '(') left = false := inert.headIs_eq_false rfl
      have ends : Text.headIs (· == '(') (takeName (first :: tail)).2.2 = false := by
        rw [taken]
        exact noCall
      have read := readName_identifier ends
      rw [← chosen, taken] at read
      rw [read] at shorter
      exact .of_isPlain outside read SheetTokenKind.noConfusion rfl (passes left inert shorter)
  | @beyond name raw c member settled =>
      have noUrl := equalIgnoringCase_url_eq_false member settled
      have within := length_takeName_le rest
      have behind : (takeName (first :: tail)).2.2 = (takeName rest).2.2 := by rw [taken]
      unfold PassesName afterName
      split
      next left call =>
        have read := readName_call (behind.trans call) (by rw [taken]; exact noUrl)
        rw [call] at within
        rw [← chosen] at read
        have run : Passes rest (first :: tail) (outline [(nextOf first tail).1] ++ []) left :=
          .token outside (by rw [read]; exact SheetTokenKind.noConfusion)
            (by rw [read]; exact .done (Nat.le_of_succ_le within))
        rwa [read] at run
      next _ noCall =>
        have ends : Text.headIs (· == '(') (takeName rest).2.2 = false := by
          cases left : (takeName rest).2.2 with
          | nil => rfl
          | cons next left' =>
              simp only [Text.headIs, beq_eq_false_iff_ne]
              rintro rfl
              exact noCall left' left
        have read := readName_identifier (behind ▸ ends)
        rw [← chosen, behind] at read
        exact .of_isPlain outside read SheetTokenKind.noConfusion rfl (.done within)

/-- The left over text of a name that comes to an inert text. -/
theorem left_of_nameAcross
    {result : Text × Text × Text}
    (across : NameAcross rest result) :
    InertBefore rest result.2.2 ∨ result.2.2 = (takeName rest).2.2 := by
  cases across with
  | within inert => exact Or.inl inert
  | beyond => exact Or.inr rfl

theorem left_readNumber (unit : InertBefore rest (Token.takeLiteral text).2) :
    InertBefore rest (readNumber text).2 ∨ (readNumber text).2 = (takeName rest).2.2 := by
  simp only [readNumber]
  split
  next left percent =>
    have noPercent : Text.headIs (· == '%') (Token.takeLiteral text).2 = false :=
      unit.headIs_eq_false rfl
    rw [percent] at noPercent
    cases noPercent
  next =>
    split
    · exact left_of_nameAcross unit.takeName
    · exact Or.inl unit

theorem kindOf_of_isNumeric {c : Char} (numeric : isNumeric c = true) : kindOf c = .other := by
  simp (disch := decide) [kindOf, ne_of_isNumeric numeric]

/-- The tokens of an inert text lead behind the name that follows it. -/
theorem passesName_of_inert (inert : InertBefore rest text) : PassesName rest text := by
  induction size : text.length using Nat.strongRecOn generalizing text with
  | _ size inductionHypothesis =>
      -- The first token ends in the inert text, or it is the one that takes the name.
      have passes : ∀ left, InertBefore rest left → left.length < text.length →
          PassesName rest left :=
        fun left inside shorter => inductionHypothesis left.length (size ▸ shorter) inside rfl
      have outside := inert.length_lt
      obtain ⟨first, tail, rfl, numeric, following⟩ := inert.exists_cons
      have shorter := nextOf_length_lt first tail
      have starts := starts_nextOf first tail
      generalize chosen : nextOf first tail = result at starts
      cases starts with
      | blank blank => exact absurd (blank.symm.trans (isBlank_of_isNumeric numeric)) nofun
      | string quote => exact absurd (quote.symm.trans (isQuote_of_isNumeric numeric)) nofun
      | number number =>
          rw [chosen] at shorter
          have other := kind_readNumber (first :: tail)
          apply Passes.of_isPlain outside chosen (by rw [other]; nofun) (by rw [other]; rfl)
          rcases left_readNumber (inert.takeLiteral number) with inside | behind
          · exact passes _ inside shorter
          · rw [behind]
            exact passesName_takeName rest
      | comment => exact absurd numeric (by decide)
      | openMarker => exact absurd numeric (by decide)
      | closeMarker =>
          have third := (inert.of_cons rfl).of_cons rfl
          have noMark : Text.headIs (· == '>') _ = false := third.headIs_eq_false rfl
          cases noMark
      | atSign => exact absurd numeric (by decide)
      | hash => exact absurd numeric (by decide)
      | name ordinary name => exact passesName_of_name outside chosen inert.takeName passes
      | single ordinary noName =>
          have unsettled : settles first = false := by
            rw [← Bool.not_eq_true]
            intro settled
            have name := startsName_of_isAlpha (isAlpha_of_settles settled) tail
            exact absurd (name.symm.trans noName) nofun
          rw [chosen] at shorter
          have other := kindOf_of_isNumeric numeric
          exact .of_isPlain outside chosen (by rw [other]; nofun) (by rw [other]; rfl)
            (passes tail (inert.of_cons unsettled) shorter)

/-- What a name leaves that comes to an inert text, if it is a part of a longer token. -/
theorem passesName_of_nameAcross
    {result : Text × Text × Text}
    (across : NameAcross rest result) :
    PassesName rest result.2.2 := by
  rcases left_of_nameAcross across with inert | behind
  · exact passesName_of_inert inert
  · rw [behind]
    exact passesName_takeName rest

end

end SheetToken

end CssRescale
