import CssRescale.Proofs.Sheet.Variants

/-!
Contract: the exchange of an inert text keeps the outline of the tokens.

Two texts that differ in an inert text have the same tokens up to some point. From there
a run of tokens passes over the difference in each of them, with the same outline and to
the same place, unless one token passes over it in both. So where the tokens before and
behind the difference are cut off, between a colon and a place where a value ends, only
the tokens between the cuts differ, and their outline is the same.

Owns:
- the next token of two texts that differ in an inert text;
- the tokens of a text after the exchange of an inert text.
-/

set_option autoImplicit false

namespace CssRescale

open Text (headIs)

namespace SheetToken

open Sheet

/-- What the next token is in both texts: the same, so that the texts that are left
differ as before, or else it starts a run in each that passes over the difference. -/
inductive StepsAlike (rest : Text) (first : Char) (tail otherTail : Text) : Prop where
  | same
      (token : (nextOf first tail).1 = (nextOf first otherTail).1)
      (left : Variants rest (nextOf first tail).2 (nextOf first otherTail).2)
  | passed {kinds : List SheetTokenKind} {left : Text}
      (passes : Passes rest (first :: tail) kinds left)
      (otherPasses : Passes rest (first :: otherTail) kinds left)

section

variable {rest text other : Text}

theorem length_lt_of_variants (variants : Variants rest text other) :
    rest.length < text.length ∧ rest.length < other.length := by
  induction variants with
  | inert inert otherInert => exact ⟨inert.length_lt, otherInert.length_lt⟩
  | cons c _ inductionHypothesis =>
      exact ⟨Nat.lt_succ_of_lt inductionHypothesis.1, Nat.lt_succ_of_lt inductionHypothesis.2⟩

/-! ## Each reader -/

section

variable
  {first : Char}
  {tail otherTail : Text}

theorem StepsAlike.of_eq
    {token : SheetToken}
    {left otherLeft : Text}
    (chosen : nextOf first tail = (token, left))
    (otherChosen : nextOf first otherTail = (token, otherLeft))
    (variants : Variants rest left otherLeft) :
    StepsAlike rest first tail otherTail := by
  apply StepsAlike.same
  · rw [chosen, otherChosen]
  · rw [chosen, otherChosen]
    exact variants

/-- A plain token with a mark in front of what a reader takes. -/
theorem StepsAlike.of_readAlike
    {kind : SheetTokenKind}
    {result otherResult : Text × Text}
    (front : Text)
    (variants : Variants rest (first :: tail) (first :: otherTail))
    (alike : ReadAlike rest result otherResult)
    (chosen : nextOf first tail = (⟨kind, front ++ result.1⟩, result.2))
    (otherChosen : nextOf first otherTail = (⟨kind, front ++ otherResult.1⟩, otherResult.2))
    (noColon : kind ≠ .colon)
    (plain : kind.isPlain = true) :
    StepsAlike rest first tail otherTail := by
  obtain ⟨outside, otherOutside⟩ := length_lt_of_variants variants
  cases alike with
  | same raw left =>
      rw [← raw] at otherChosen
      exact .of_eq chosen otherChosen left
  | beyond left within =>
      apply StepsAlike.passed
      · exact .of_isPlain outside chosen noColon plain (.done within)
      · apply Passes.of_isPlain otherOutside otherChosen noColon plain
        rw [← left]
        exact .done within

/-- A plain token that ends with a name, which may be absent. -/
theorem StepsAlike.of_takeNameIf
    {expected : Text → Bool}
    {front unit otherUnit : Text}
    (kind : Bool → Text → SheetTokenKind)
    (variants : Variants rest (first :: tail) (first :: otherTail))
    (unitVariants : Variants rest unit otherUnit)
    (agrees : ¬(InertBefore rest unit ∧ InertBefore rest otherUnit) →
      expected unit = expected otherUnit)
    (chosen : nextOf first tail =
      (⟨kind (expected unit) (takeNameIf (expected unit) unit).1,
        front ++ (takeNameIf (expected unit) unit).2.1⟩, (takeNameIf (expected unit) unit).2.2))
    (otherChosen : nextOf first otherTail =
      (⟨kind (expected otherUnit) (takeNameIf (expected otherUnit) otherUnit).1,
        front ++ (takeNameIf (expected otherUnit) otherUnit).2.1⟩,
        (takeNameIf (expected otherUnit) otherUnit).2.2))
    (noColon : ∀ present name, kind present name ≠ .colon)
    (plain : ∀ present name, (kind present name).isPlain = true) :
    StepsAlike rest first tail otherTail := by
  obtain ⟨outside, otherOutside⟩ := length_lt_of_variants variants
  rcases unitVariants.takeNameIf agrees with ⟨present, name, raw, left⟩ | ⟨across, otherAcross⟩
  · rw [← present] at name raw left otherChosen
    rw [← name, ← raw] at otherChosen
    exact .of_eq chosen otherChosen left
  · apply StepsAlike.passed
    · exact .of_isPlain outside chosen (noColon _ _) (plain _ _) (passesName_of_nameAcross across)
    · exact .of_isPlain otherOutside otherChosen (noColon _ _) (plain _ _)
        (passesName_of_nameAcross otherAcross)

theorem readAt_eq (text : Text) :
    readAt text =
      (⟨if startsName text then .atKeyword (takeNameIf (startsName text) text).1 else .other,
        ['@'] ++ (takeNameIf (startsName text) text).2.1⟩,
        (takeNameIf (startsName text) text).2.2) := by
  unfold readAt
  cases startsName text <;> rfl

theorem readHash_eq (text : Text) :
    readHash text =
      (⟨.other, ['#'] ++ (takeNameIf (continuesName text) text).2.1⟩,
        (takeNameIf (continuesName text) text).2.2) := by
  unfold readHash
  cases continuesName text <;> rfl

theorem readNumber_eq
    (noPercent : headIs (· == '%') (Token.takeLiteral text).2 = false) :
    readNumber text =
      (⟨.other, (Token.takeLiteral text).1
          ++ (takeNameIf (startsName (Token.takeLiteral text).2) (Token.takeLiteral text).2).2.1⟩,
        (takeNameIf (startsName (Token.takeLiteral text).2) (Token.takeLiteral text).2).2.2) := by
  simp only [readNumber]
  generalize (Token.takeLiteral text).2 = unit at noPercent
  split
  next => cases noPercent
  next =>
    cases startsName unit with
    | false => simp [takeNameIf]
    | true => rfl

theorem StepsAlike.of_at (variants : Variants rest tail otherTail) :
    StepsAlike rest '@' tail otherTail := by
  have chosen := fun text => (@Starts.atSign text).nextOf_eq.trans (readAt_eq text)
  apply StepsAlike.of_takeNameIf
    (fun present name => if present then .atKeyword name else .other)
    (variants.cons '@') variants variants.startsName_eq (chosen tail) (chosen otherTail)
  · intro present name
    cases present <;> exact SheetTokenKind.noConfusion
  · intro present name
    cases present <;> rfl

theorem StepsAlike.of_hash (variants : Variants rest tail otherTail) :
    StepsAlike rest '#' tail otherTail := by
  have chosen := fun text => (@Starts.hash text).nextOf_eq.trans (readHash_eq text)
  exact .of_takeNameIf (fun _ _ => .other) (variants.cons '#') variants variants.continuesName_eq
    (chosen tail) (chosen otherTail) nofun fun _ _ => rfl

theorem StepsAlike.of_number
    (variants : Variants rest (first :: tail) (first :: otherTail))
    (notInert : ¬(InertBefore rest (first :: tail) ∧ InertBefore rest (first :: otherTail)))
    (number : Token.startsNumber (first :: tail) = true) :
    StepsAlike rest first tail otherTail := by
  obtain ⟨starts, literal, unit⟩ := variants.takeLiteral notInert
  have percents : headIs (· == '%') (Token.takeLiteral (first :: tail)).2 =
      headIs (· == '%') (Token.takeLiteral (first :: otherTail)).2 := unit.headIs_eq rfl
  have chosen := (Starts.number number).nextOf_eq
  have otherChosen := (Starts.number (starts.symm.trans number)).nextOf_eq
  cases percent : headIs (· == '%') (Token.takeLiteral (first :: tail)).2 with
  | true =>
      obtain ⟨left, otherLeft, behind, otherBehind, leftVariants⟩ :=
        unit.exists_of_headIs rfl percent
      apply StepsAlike.same
      · simp [chosen, otherChosen, readNumber, behind, otherBehind, literal]
      · simpa [chosen, otherChosen, readNumber, behind, otherBehind] using leftVariants
  | false =>
      rw [readNumber_eq percent] at chosen
      rw [readNumber_eq (percents.symm.trans percent), ← literal] at otherChosen
      exact .of_takeNameIf (fun _ _ => .other) variants unit unit.startsName_eq chosen otherChosen
        (fun _ _ => SheetTokenKind.noConfusion) fun _ _ => rfl

theorem StepsAlike.of_string
    (variants : Variants rest tail otherTail)
    (quote : isQuote first = true) :
    StepsAlike rest first tail otherTail :=
  .of_readAlike [first] (variants.cons first) (variants.takeString quote)
    (Starts.string quote).nextOf_eq (Starts.string quote).nextOf_eq nofun rfl

theorem StepsAlike.of_comment (variants : Variants rest tail otherTail) :
    StepsAlike rest '/' ('*' :: tail) ('*' :: otherTail) :=
  .of_readAlike ['/', '*'] ((variants.cons '*').cons '/') variants.takeComment
    Starts.comment.nextOf_eq Starts.comment.nextOf_eq nofun rfl

/-- A call of `url` with a string in it is like any other call. -/
theorem readName_argument
    {inside : Text}
    (call : (takeName text).2.2 = '(' :: inside)
    (argument : takeUrl? inside = none) :
    readName text = (⟨.opening .round, (takeName text).2.1 ++ ['(']⟩, inside) := by
  simp [readName, call, argument]

/-- A name, which may be that of a URL. -/
theorem StepsAlike.of_name
    (variants : Variants rest (first :: tail) (first :: otherTail))
    (chosen : nextOf first tail = readName (first :: tail))
    (otherChosen : nextOf first otherTail = readName (first :: otherTail)) :
    StepsAlike rest first tail otherTail := by
  obtain ⟨outside, otherOutside⟩ := length_lt_of_variants variants
  cases variants.takeName with
  | across across otherAcross =>
      apply StepsAlike.passed
      · exact passesName_of_name outside chosen across fun _ inert _ => passesName_of_inert inert
      · exact passesName_of_name otherOutside otherChosen otherAcross fun _ inert _ =>
          passesName_of_inert inert
  | same name raw left =>
      have calls : headIs (· == '(') (takeName (first :: tail)).2.2 =
          headIs (· == '(') (takeName (first :: otherTail)).2.2 := left.headIs_eq rfl
      cases call : headIs (· == '(') (takeName (first :: tail)).2.2 with
      | false =>
          rw [readName_identifier call] at chosen
          rw [readName_identifier (calls.symm.trans call), ← name, ← raw] at otherChosen
          exact .of_eq chosen otherChosen left
      | true =>
          obtain ⟨inside, otherInside, behind, otherBehind, insideVariants⟩ :=
            left.exists_of_headIs rfl call
          cases url : Text.equalIgnoringCase (takeName (first :: tail)).1 ['u', 'r', 'l'] with
          | false =>
              rw [readName_call behind url] at chosen
              rw [readName_call otherBehind (name ▸ url), ← raw] at otherChosen
              exact .of_eq chosen otherChosen insideVariants
          | true =>
              rcases insideVariants.takeUrl? with ⟨argument, otherArgument⟩ | found
              · rw [readName_argument behind argument] at chosen
                rw [readName_argument otherBehind otherArgument, ← raw] at otherChosen
                exact .of_eq chosen otherChosen insideVariants
              · obtain ⟨result, otherResult, taken, otherTaken, alike⟩ := found
                rw [readName_url behind url taken, List.append_cons] at chosen
                rw [readName_url otherBehind (name ▸ url) otherTaken, List.append_cons, ← raw]
                  at otherChosen
                exact .of_readAlike _ variants alike chosen otherChosen nofun rfl

end

/-! ## The choice of the reader -/

theorem startsSpecial_marker_iff :
    startsSpecial ('<' :: '!' :: text) = true ↔ ∃ left, text = '-' :: '-' :: left := by
  constructor
  · intro special
    unfold startsSpecial at special
    split at special
    next same => cases same
    next left same => exact ⟨left, (List.cons.inj (List.cons.inj same).2).2⟩
    next same => cases same
    next same => cases same
    next same => cases same
    next => cases special
  · rintro ⟨left, rfl⟩
    rfl

/-- Behind `<!` an inert text completes a marker or not. -/
theorem passesName_marker (inert : InertBefore rest text) :
    PassesName rest ('<' :: '!' :: text) := by
  have shorter := inert.length_lt
  have outside : rest.length < ('!' :: text).length := Nat.lt_succ_of_lt shorter
  by_cases marker : ∃ left, text = '-' :: '-' :: left
  · obtain ⟨left, rfl⟩ := marker
    have behind := passesName_of_inert ((inert.of_cons rfl).of_cons rfl)
    exact .of_isPlain (Nat.lt_succ_of_lt outside) Starts.openMarker.nextOf_eq nofun rfl behind
  · have special : startsSpecial ('<' :: '!' :: text) = false := by
      rwa [← Bool.not_eq_true, startsSpecial_marker_iff]
    have opening := (Starts.single ⟨rfl, rfl, rfl, special⟩ rfl).nextOf_eq
    have second : nextOf '!' text = _ := (Starts.single ⟨rfl, rfl, rfl, rfl⟩ rfl).nextOf_eq
    exact .of_isPlain (Nat.lt_succ_of_lt outside) opening nofun rfl
      (.of_isPlain outside second nofun rfl (passesName_of_inert inert))

/-- A marker that closes stands in both texts. -/
theorem exists_of_closeMarker
    {left : Text}
    (variants : Variants rest ('-' :: '>' :: left) other) :
    ∃ otherLeft, other = '-' :: '>' :: otherLeft ∧ Variants rest left otherLeft := by
  cases variants with
  | inert inert =>
      have head : headIs (· == '>') ('>' :: left) = false :=
        (inert.of_cons rfl).headIs_eq_false rfl
      cases head
  | cons _ variants =>
      obtain ⟨left, otherLeft, same, rfl, leftVariants⟩ :=
        variants.exists_of_headIs (c := '>') rfl rfl
      cases same
      exact ⟨otherLeft, rfl, leftVariants⟩

/-- A marker that opens stands in both texts, or is completed by an inert text. -/
theorem exists_of_openMarker
    {left : Text}
    (variants : Variants rest ('!' :: '-' :: '-' :: left) other) :
    (∃ otherLeft, other = '!' :: '-' :: '-' :: otherLeft ∧ Variants rest left otherLeft) ∨
      ∃ otherInside, other = '!' :: otherInside ∧ InertBefore rest ('-' :: '-' :: left) ∧
        InertBefore rest otherInside := by
  cases variants with
  | inert inert =>
      have head : headIs (· == '!') ('!' :: '-' :: '-' :: left) = false :=
        inert.headIs_eq_false rfl
      cases head
  | cons _ variants =>
      cases variants with
      | inert inert otherInert => exact Or.inr ⟨_, rfl, inert, otherInert⟩
      | cons _ variants =>
          cases variants with
          | inert inert otherInert =>
              exact Or.inr ⟨_, rfl, .cons rfl inert, .cons rfl otherInert⟩
          | cons _ variants => exact Or.inl ⟨_, rfl, variants⟩

/-- A marker that opens may be completed by the inert texts. -/
def MarksInert (rest : Text) (first : Char) (tail otherTail : Text) : Prop :=
  ∃ inside otherInside, first = '<' ∧ tail = '!' :: inside ∧ otherTail = '!' :: otherInside ∧
    InertBefore rest inside ∧ InertBefore rest otherInside

section

variable
  {first : Char}
  {tail otherTail : Text}

/-- What starts with a name or a single character in one text does so in the other. -/
theorem Ordinary.of_variants
    (ordinary : Ordinary first tail)
    (variants : Variants rest tail otherTail)
    (notInert : ¬(InertBefore rest (first :: tail) ∧ InertBefore rest (first :: otherTail)))
    (noMarker : ¬MarksInert rest first tail otherTail) :
    Ordinary first otherTail where
  blank := ordinary.blank
  quote := ordinary.quote
  number := ((variants.cons first).takeLiteral notInert).1.symm.trans ordinary.number
  special := by
    rw [← Bool.not_eq_true]
    intro special
    have plain := ordinary.special
    unfold startsSpecial at special
    split at special
    next same =>
      obtain ⟨rfl, rfl⟩ := List.cons.inj same
      obtain ⟨_, _, _, rfl, _⟩ := variants.symm.exists_of_headIs (c := '*') rfl rfl
      cases plain
    next same =>
      obtain ⟨rfl, rfl⟩ := List.cons.inj same
      rcases exists_of_openMarker variants.symm with ⟨left, rfl, _⟩ | found
      · cases plain
      · obtain ⟨inside, rfl, otherInert, inert⟩ := found
        exact noMarker ⟨_, _, rfl, rfl, rfl, inert, otherInert⟩
    next same =>
      obtain ⟨rfl, rfl⟩ := List.cons.inj same
      obtain ⟨_, rfl, _⟩ := exists_of_closeMarker variants.symm
      cases plain
    next same =>
      obtain ⟨rfl, rfl⟩ := List.cons.inj same
      cases plain
    next same =>
      obtain ⟨rfl, rfl⟩ := List.cons.inj same
      cases plain
    next => cases special

/-- The next token of two texts that differ in an inert text behind its start. -/
theorem stepsAlike_of_variants
    (variants : Variants rest tail otherTail)
    (notInert : ¬(InertBefore rest (first :: tail) ∧ InertBefore rest (first :: otherTail))) :
    StepsAlike rest first tail otherTail := by
  have alone : Variants rest (first :: tail) (first :: otherTail) := variants.cons first
  by_cases marker : MarksInert rest first tail otherTail
  · obtain ⟨inside, otherInside, rfl, rfl, rfl, inert, otherInert⟩ := marker
    exact .passed (passesName_marker inert) (passesName_marker otherInert)
  have starts := starts_nextOf first tail
  generalize chosen : nextOf first tail = result at starts
  cases starts with
  | blank blank =>
      have otherChosen := (@Starts.blank first otherTail blank).nextOf_eq
      obtain ⟨blanks, left⟩ := variants.span_isBlank
      rw [← blanks] at otherChosen
      exact .of_eq chosen otherChosen left
  | string quote => exact .of_string variants quote
  | number number => exact .of_number alone notInert number
  | comment =>
      obtain ⟨_, _, same, rfl, inside⟩ := variants.exists_of_headIs (c := '*') rfl rfl
      cases same
      exact .of_comment inside
  | openMarker =>
      rcases exists_of_openMarker variants with ⟨otherLeft, rfl, left⟩ | found
      · exact .of_eq chosen Starts.openMarker.nextOf_eq left
      · obtain ⟨otherInside, rfl, inert, otherInert⟩ := found
        exact absurd ⟨_, _, rfl, rfl, rfl, inert, otherInert⟩ marker
  | closeMarker =>
      obtain ⟨otherLeft, rfl, left⟩ := exists_of_closeMarker variants
      exact .of_eq chosen Starts.closeMarker.nextOf_eq left
  | atSign => exact .of_at variants
  | hash => exact .of_hash variants
  | name ordinary name =>
      have otherName := (alone.startsName_eq notInert).symm.trans name
      have otherOrdinary := ordinary.of_variants variants notInert marker
      exact .of_name alone chosen (Starts.name otherOrdinary otherName).nextOf_eq
  | single ordinary noName =>
      have otherNoName := (alone.startsName_eq notInert).symm.trans noName
      have otherOrdinary := ordinary.of_variants variants notInert marker
      exact .of_eq chosen (Starts.single otherOrdinary otherNoName).nextOf_eq variants

end

/-! ## All tokens -/

variable {stop : Text}

/-- The texts that differ in an inert text have the same outline up to a cut behind the
difference. -/
theorem exists_scan_variants
    {tokens : List SheetToken}
    (variants : Variants rest text other)
    (within : stop.length ≤ rest.length)
    (noCall : headIs (· == '(') stop = false)
    (scanned : scan text = tokens ++ scan stop) :
    ∃ others, scan other = others ++ scan stop ∧ outline others = outline tokens := by
  -- Equal first tokens are taken off until a run in each text passes over the difference.
  induction size : text.length using Nat.strongRecOn generalizing text other tokens with
  | _ size inductionHypothesis =>
      have passed : ∀ {kinds left}, Passes rest text kinds left → Passes rest other kinds left →
          ∃ others, scan other = others ++ scan stop ∧ outline others = outline tokens := by
        intro kinds left passes otherPasses
        obtain ⟨behind, cut, same⟩ := passes.exists_scan_eq within noCall scanned
        obtain ⟨others, otherCut, otherSame⟩ := otherPasses.exists_of_scan_eq cut
        exact ⟨others, otherCut, otherSame.trans same.symm⟩
      by_cases inert : InertBefore rest text ∧ InertBefore rest other
      · exact passed (passesName_of_inert inert.1) (passesName_of_inert inert.2)
      cases variants with
      | inert here otherInert => exact absurd ⟨here, otherInert⟩ inert
      | @cons tail otherTail first variants =>
          cases stepsAlike_of_variants variants inert with
          | passed passes otherPasses => exact passed passes otherPasses
          | same token left =>
              have shorter := nextOf_length_lt first tail
              have outside := (length_lt_of_variants (variants.cons first)).1
              have later : stop ≠ first :: tail := by
                rintro rfl
                omega
              obtain ⟨tokens, rfl, behind⟩ := exists_of_scan_cons later scanned
              obtain ⟨others, cut, same⟩ := inductionHypothesis _ (size ▸ shorter) left behind rfl
              refine ⟨(nextOf first otherTail).1 :: others, ?_, ?_⟩
              · rw [scan_cons, cut]
                rfl
              · rw [outline_cons, outline_cons _ tokens, same, token]

/-- A token is the same in both texts if a colon comes with it or after it, before the
difference. -/
theorem scan_cons_of_variants
    {token colon : SheetToken}
    {tokens : List SheetToken}
    (variants : Variants rest text other)
    (member : colon ∈ token :: tokens)
    (isColon : colon.kind = .colon)
    (scanned : scan (concat (token :: tokens) ++ text) = token :: tokens ++ scan text) :
    scan (concat tokens ++ text) = tokens ++ scan text ∧
      scan (concat (token :: tokens) ++ other) = token :: scan (concat tokens ++ other) := by
  have outside := (length_lt_of_variants variants).1
  have pair := variants.append (concat (token :: tokens))
  generalize source : concat (token :: tokens) ++ text = whole at pair scanned
  generalize otherSource : concat (token :: tokens) ++ other = otherWhole at pair ⊢
  have noRun : ∀ {kinds left}, ¬Passes rest whole kinds left := fun passes =>
    passes.noColon_of_scan_eq outside scanned colon member isColon
  cases pair with
  | inert inert => exact absurd (passesName_of_inert inert) noRun
  | @cons tail otherTail first tails =>
      have notInert : ¬(InertBefore rest (first :: tail) ∧ InertBefore rest (first :: otherTail)) :=
        fun inert => noRun (passesName_of_inert inert.1)
      cases stepsAlike_of_variants tails notInert with
      | passed passes => exact absurd passes noRun
      | same same left =>
          rw [scan_cons, List.cons_append] at scanned
          obtain ⟨rfl, behind⟩ := List.cons.inj scanned
          have left : (nextOf first tail).2 = concat tokens ++ text := by
            have whole := congrArg concat behind
            rwa [concat_scan, concat_append, concat_scan] at whole
          have otherLeft : (nextOf first otherTail).2 = concat tokens ++ other := by
            have whole := nextOf_append first otherTail
            rw [← otherSource, concat_cons, same, List.append_assoc] at whole
            exact List.append_cancel_left whole
          rw [← left, scan_cons, ← same, otherLeft]
          exact ⟨behind, rfl⟩

/-- Up to a colon before the difference the texts have the same tokens. -/
theorem scan_append_of_variants
    {tokens : List SheetToken}
    {colon : SheetToken}
    (variants : Variants rest text other)
    (isColon : colon.kind = .colon)
    (scanned : scan (concat (tokens ++ [colon]) ++ text) = tokens ++ [colon] ++ scan text) :
    scan (concat (tokens ++ [colon]) ++ other) = tokens ++ [colon] ++ scan other := by
  induction tokens with
  | nil =>
      have member : colon ∈ [colon] := List.mem_cons_self
      rw [List.nil_append, (scan_cons_of_variants variants member isColon scanned).2]
      rfl
  | cons token tokens inductionHypothesis =>
      have member : colon ∈ token :: (tokens ++ [colon]) := by simp
      obtain ⟨behind, otherScanned⟩ := scan_cons_of_variants variants member isColon scanned
      rw [List.cons_append, otherScanned, inductionHypothesis behind]
      rfl

/-- The last tokens of a text are the tokens of what they are written as. -/
theorem scan_concat
    {source : Text}
    {before behind : List SheetToken}
    (scanned : scan source = before ++ behind) :
    scan (concat behind) = behind := by
  induction before generalizing source with
  | nil =>
      rw [List.nil_append] at scanned
      rw [← scanned, concat_scan]
  | cons token before inductionHypothesis =>
      cases source with
      | nil =>
          rw [scan_nil] at scanned
          cases scanned
      | cons first tail =>
          rw [scan_cons] at scanned
          exact inductionHypothesis (List.cons.inj scanned).2

/-- After the exchange of an inert text between a colon and a cut, only the tokens
between these differ, and their outline is the same. -/
theorem exists_scan_exchange
    {source : Text}
    {before inside behind : List SheetToken}
    {colon : SheetToken}
    (isColon : colon.kind = .colon)
    (scanned : scan source = before ++ [colon] ++ (inside ++ behind))
    (variants : Variants rest (concat (inside ++ behind)) other)
    (within : (concat behind).length ≤ rest.length)
    (noCall : headIs (· == '(') (concat behind) = false) :
    ∃ others, scan (concat (before ++ [colon]) ++ other) = before ++ [colon] ++ (others ++ behind) ∧
      outline others = outline inside := by
  have written := congrArg concat scanned
  rw [concat_scan, concat_append] at written
  have text := scan_concat scanned
  have cut := scan_concat text
  rw [written] at scanned
  obtain ⟨others, otherScanned, same⟩ := exists_scan_variants variants within noCall
    (text.trans (congrArg (inside ++ ·) cut.symm))
  refine ⟨others, ?_, same⟩
  rw [scan_append_of_variants variants isColon (by rw [scanned, text]), otherScanned, cut]

end

end SheetToken

end CssRescale
