import CssRescale.Proofs.Token.Replace

/-!
Contract: a comma or a closing parenthesis parts a text into texts that are scanned apart.

These characters end every token but strings, comments and the bodies of URLs. So where
the text before one of them leaves none of those open, and does not end in a backslash,
its tokens are the same as if nothing followed, and what follows is scanned as a text of
its own.

Owns:
- the marks that part a text, and each reader before one of them;
- tokens in which every string, comment and call is closed;
- the scan of a text with a mark and another text behind it.
-/

set_option autoImplicit false

namespace CssRescale.Token

open Text (headIs headIs_append_of_ends endsRun takeEscaped takeEscaped_append_of_ends)

/-! ## Marks -/

/-- The characters that are tokens of their own and part a text. -/
inductive IsMark : Char → Token → Prop where
  | comma : IsMark ',' comma
  | closeParen : IsMark ')' closeParen

/-- The token is not a string or a comment that runs to the end of the text. -/
def isTerminated : Token → Bool
  | string _ terminated => terminated
  | comment _ terminated => terminated
  | _ => true

/-- Every string, comment and parenthesis among the tokens is closed among them. -/
structure AreClosed (tokens : List Token) : Prop where
  terminated : ∀ token ∈ tokens, token.isTerminated = true
  calls : ∀ front back, tokens = front ++ openParen :: back → closeParen ∈ back

theorem AreClosed.tail
    {token : Token}
    {tokens : List Token}
    (closed : AreClosed (token :: tokens)) :
    AreClosed tokens where
  terminated := fun other member => closed.terminated other (List.mem_cons_of_mem token member)
  calls := fun front back shape => closed.calls (token :: front) back (by rw [shape]; rfl)

/-- What ends in no backslash has no part at its end that ends in one. -/
theorem getLast?_ne_of_append
    (front : Text)
    {back : Text}
    {c : Char}
    (plain : (front ++ back).getLast? ≠ some c) :
    back.getLast? ≠ some c := by
  cases back with
  | nil => simp
  | cons first rest => simpa [List.getLast?_append] using plain

section

variable
  {c : Char}
  {mark : Token}
  (isMark : IsMark c mark)
  (rest : Text)

include isMark

theorem IsMark.endsRun_of_stops
    {stops : Char → Bool}
    (comma : stops ',' = true)
    (closeParen : stops ')' = true) :
    endsRun stops (c :: rest) = true := by
  cases isMark with
  | comma => exact comma
  | closeParen => exact closeParen

theorem IsMark.headIs_eq_false
    {holds : Char → Bool}
    (comma : holds ',' = false)
    (closeParen : holds ')' = false) :
    headIs holds (c :: rest) = false := by
  cases isMark with
  | comma => exact comma
  | closeParen => exact closeParen

theorem IsMark.starts : Starts c rest (mark, rest) := by
  cases isMark with
  | comma => exact .comma
  | closeParen => exact .closeParen

theorem IsMark.after (state : UrlState) (left : Text) : state.after mark left = .outside := by
  cases isMark with
  | comma => rfl
  | closeParen => rfl

/-! ## Readers -/

variable {text : Text}

theorem takeEscaped_append_mark
    (stops : Char → Bool)
    (plain : text.getLast? ≠ some '\\')
    (comma : stops ',' = true)
    (closeParen : stops ')' = true) :
    takeEscaped stops (text ++ c :: rest) =
      ((takeEscaped stops text).1, (takeEscaped stops text).2 ++ c :: rest) :=
  takeEscaped_append_of_ends plain fun _ => isMark.endsRun_of_stops rest comma closeParen

theorem takeUnit_append_mark (plain : text.getLast? ≠ some '\\') :
    takeUnit (text ++ c :: rest) = ((takeUnit text).1, (takeUnit text).2 ++ c :: rest) := by
  have identifier : takeIdentifier (text ++ c :: rest) =
      ((takeIdentifier text).1, (takeIdentifier text).2 ++ c :: rest) :=
    takeEscaped_append_mark isMark rest endsIdentifier plain rfl rfl
  cases text with
  | nil =>
      apply takeUnit_of_no_unit (isMark.headIs_eq_false rest rfl rfl)
      cases isMark <;> rfl
  | cons first others =>
      by_cases percent : first = '%'
      · rw [percent]
        rfl
      · have starts :
            startsUnit (first :: (others ++ c :: rest)) = startsUnit (first :: others) := by
          rw [startsUnit_cons, startsUnit_cons]
          cases others with
          | cons second others => rfl
          | nil =>
              have unescaped : first ≠ '\\' := by simpa using plain
              simp [unescaped]
        have noPercent : ∀ tail, headIs (· == '%') (first :: tail) = false := fun _ =>
          beq_false_of_ne percent
        rw [List.cons_append] at identifier ⊢
        cases unit : startsUnit (first :: others) with
        | true =>
            rw [takeUnit_of_startsUnit (starts.trans unit), takeUnit_of_startsUnit unit, identifier]
        | false =>
            rw [takeUnit_of_no_unit (noPercent _) (starts.trans unit),
              takeUnit_of_no_unit (noPercent _) unit]
            rfl

theorem readNumber_append_mark (plain : text.getLast? ≠ some '\\') :
    readNumber (text ++ c :: rest) = ((readNumber text).1, (readNumber text).2 ++ c :: rest) := by
  have ends : headIs isLiteralChar (c :: rest) = false := isMark.headIs_eq_false rest rfl rfl
  have shorter : (takeLiteral text).2.getLast? ≠ some '\\' := by
    rw [← takeLiteral_append text] at plain
    exact getLast?_ne_of_append _ plain
  simp only [readNumber, takeLiteral_append_of_ends ends, takeUnit_append_mark isMark rest shorter]

theorem readWord_append_mark (plain : text.getLast? ≠ some '\\') :
    readWord (text ++ c :: rest) = ((readWord text).1, (readWord text).2 ++ c :: rest) := by
  have taken := takeEscaped_append_mark isMark rest endsWord plain rfl rfl
  simp only [readWord, taken]

end

/-! ## Strings and comments before any text -/

section

variable
  {text : Text}
  (following : Text)

/-- A terminated string ends inside the text, whatever is behind it. -/
theorem takeString_append_of_terminated
    {quote : Char}
    (plain : text.getLast? ≠ some '\\')
    (terminated : (takeString quote text).2.1 = true) :
    takeString quote (text ++ following) =
      ((takeString quote text).1, (takeString quote text).2.1,
        (takeString quote text).2.2 ++ following) := by
  cases taking : takeEscaped (· == quote) text with
  | mk body left =>
      cases left with
      | nil => simp [takeString, taking] at terminated
      | cons closing left =>
          have taken : takeEscaped (· == quote) (text ++ following) =
              (body, closing :: (left ++ following)) := by
            have ends : (takeEscaped (· == quote) text).2 = [] →
                endsRun (· == quote) following = true := by simp [taking]
            rw [takeEscaped_append_of_ends plain ends, taking]
            rfl
          simp only [takeString, taking, taken]

theorem takeComment_append_of_terminated (terminated : (takeComment text).2.1 = true) :
    takeComment (text ++ following) =
      ((takeComment text).1, (takeComment text).2.1, (takeComment text).2.2 ++ following) := by
  fun_induction takeComment text with
  | case1 => cases terminated
  | case2 rest => rfl
  | case3 first rest unclosed taken ends left taking inductionHypothesis =>
      rw [taking] at inductionHypothesis
      have shorter := inductionHypothesis terminated
      rw [List.cons_append, takeComment]
      · simp only [shorter]
      · intro tail star slash
        cases rest with
        | nil =>
            simp only [takeComment, Prod.mk.injEq] at taking
            rw [← taking.2.1] at terminated
            cases terminated
        | cons second others =>
            obtain ⟨rfl, _⟩ := List.cons.inj slash
            exact unclosed others star rfl

end

/-! ## One step before a mark -/

section

variable
  {c : Char}
  {mark : Token}
  (isMark : IsMark c mark)
  (rest : Text)

include isMark

theorem headIs_append_mark
    {holds : Char → Bool}
    (text : Text)
    (comma : holds ',' = false)
    (closeParen : holds ')' = false) :
    headIs holds (text ++ c :: rest) = headIs holds text :=
  headIs_append_of_ends (isMark.headIs_eq_false rest comma closeParen) text

theorem startsNumber_append_mark (text : Text) :
    startsNumber (text ++ c :: rest) = startsNumber text :=
  startsNumber_append_of_ends (isMark.headIs_eq_false rest rfl rfl) text

theorem startsDashedWord_append_mark (first : Char) (text : Text) :
    startsDashedWord (first :: (text ++ c :: rest)) = startsDashedWord (first :: text) := by
  rw [startsDashedWord_cons, startsDashedWord_cons,
    headIs_append_mark isMark rest text rfl rfl]

theorem readSpace_append_mark (text : Text) :
    readSpace (text ++ c :: rest) = ((readSpace text).1, (readSpace text).2 ++ c :: rest) := by
  have ends : headIs isBlank (c :: rest) = false := isMark.headIs_eq_false rest rfl rfl
  obtain ⟨taken, left⟩ := Text.span_append_of_ends ends text
  simp only [readSpace, taken, left]

theorem readMark_append_mark {text : Text} (plain : text.getLast? ≠ some '\\') :
    readMark (text ++ c :: rest) = ((readMark text).1, (readMark text).2 ++ c :: rest) := by
  have taken := takeEscaped_append_mark isMark rest endsIdentifier plain rfl rfl
  simp only [readMark, takeIdentifier_eq, taken]

/-- A token that is terminated is read the same with a mark behind the text. -/
theorem Starts.append_mark
    {first : Char}
    {text : Text}
    {result : Token × Text}
    (starts : Starts first text result)
    (plain : (first :: text).getLast? ≠ some '\\')
    (terminated : result.1.isTerminated = true) :
    Starts first (text ++ c :: rest) (result.1, result.2 ++ c :: rest) := by
  have shorter : text.getLast? ≠ some '\\' := getLast?_ne_of_append [first] plain
  have noNumber := startsNumber_append_mark isMark rest (first :: text)
  have noDash := startsDashedWord_append_mark isMark rest first text
  cases starts with
  | space blank =>
      rw [← readSpace_append_mark isMark rest]
      exact .space blank
  | string quote =>
      have taken := takeString_append_of_terminated (c :: rest) shorter terminated
      have read : readString first (text ++ c :: rest) =
          ((readString first text).1, (readString first text).2 ++ c :: rest) := by
        simp only [readString, taken]
      rw [← read]
      exact .string quote
  | @comment body =>
      have taken := takeComment_append_of_terminated (c :: rest) terminated
      have read : readComment (body ++ c :: rest) =
          ((readComment body).1, (readComment body).2 ++ c :: rest) := by
        simp only [readComment, taken]
      rw [← read]
      exact .comment
  | openParen => exact .openParen
  | closeParen => exact .closeParen
  | comma => exact .comma
  | mark =>
      rw [← readMark_append_mark isMark rest shorter]
      exact .mark
  | number number =>
      rw [← readNumber_append_mark isMark rest plain]
      exact .number (noNumber.trans number)
  | dashedWord dashed =>
      rw [← readWord_append_mark isMark rest plain]
      exact .dashedWord (noDash.trans dashed)
  | operator operator noComment absent noWord =>
      refine .operator operator ?_ (noNumber.trans absent) (noDash.trans noWord)
      rw [startsComment_cons] at noComment ⊢
      rw [headIs_append_mark isMark rest text rfl rfl]
      exact noComment
  | word goesOn noOperator absent noWord =>
      rw [← readWord_append_mark isMark rest plain]
      exact .word goesOn noOperator (noNumber.trans absent) (noDash.trans noWord)

/-- Where something follows the blanks after `url(`, its body is told the same with a mark
behind the text. -/
theorem expectedBody?_append_mark
    {state : UrlState}
    {source : Text}
    (plain : source.getLast? ≠ some '\\')
    (begins : state = .opened → source.dropWhile isBlank ≠ [])
    (ends : ∀ body, expectedBody? state source ≠ some (body, [])) :
    expectedBody? state (source ++ c :: rest) =
      (expectedBody? state source).map fun (body, left) => (body, left ++ c :: rest) := by
  by_cases opened : state = .opened
  · have blanks := (Text.span_append_of_ends
      (isMark.headIs_eq_false rest rfl rfl : headIs isBlank (c :: rest) = false) source).2
    obtain ⟨first, others, shape⟩ := List.exists_cons_of_ne_nil (begins opened)
    rw [shape] at blanks
    simp only [expectedBody?, if_pos opened, takeUrlBody?, blanks, List.cons_append,
      shape] at ends ⊢
    by_cases quotes : (isQuote first || first == ')') = true
    · simp only [if_pos quotes]
      rfl
    · simp only [if_neg quotes] at ends ⊢
      have goesOn : (takeEscaped (· == ')') source).2 ≠ [] := by
        intro none
        apply ends (takeEscaped (· == ')') source).1
        rw [← none]
      rw [takeEscaped_append_of_ends plain fun none => absurd none goesOn]
      rfl
  · simp [expectedBody?, opened]

theorem next?_append_mark
    {state : UrlState}
    {source left : Text}
    {token : Token}
    (reading : next? state source = some (token, left))
    (plain : source.getLast? ≠ some '\\')
    (terminated : token.isTerminated = true)
    (begins : state = .opened → source.dropWhile isBlank ≠ [])
    (ends : ∀ body, expectedBody? state source ≠ some (body, [])) :
    next? state (source ++ c :: rest) = some (token, left ++ c :: rest) := by
  have expectation := expectedBody?_append_mark isMark rest plain begins ends
  rcases next?_cases reading with ⟨body, rfl, expected⟩ | ⟨first, text, rfl, unexpected, starts⟩
  · apply next?_of_expected
    rw [expectation, expected]
    rfl
  · rw [unexpected] at expectation
    exact next?_of_starts expectation (starts.append_mark isMark rest plain terminated)

/-! ## Scans before a mark -/

theorem after_append_mark (state : UrlState) (token : Token) (left : Text) :
    state.after token (left ++ c :: rest) = state.after token left := by
  have paren : startsWithParen (left ++ c :: rest) = startsWithParen left := by
    rw [startsWithParen_eq, startsWithParen_eq]
    exact headIs_append_mark isMark rest left rfl rfl
  cases token with
  | word raw => simp only [UrlState.after, paren]
  | _ => rfl

omit isMark in
/-- Only an opening parenthesis can open the body of a URL. -/
theorem eq_openParen_of_after
    {state : UrlState}
    {token : Token}
    {left : Text}
    (opened : state.after token left = .opened) :
    token = openParen := by
  cases token with
  | openParen => rfl
  | word raw =>
      simp only [UrlState.after] at opened
      split at opened <;> cases opened
  | _ => cases opened

omit isMark in
/-- If only white space follows `url(`, it is the last token. -/
theorem closeParen_not_mem_of_blank
    {state : UrlState}
    {source : Text}
    (blank : source.dropWhile isBlank = []) :
    closeParen ∉ scanFrom state source := by
  cases source with
  | nil => simp
  | cons first text =>
      have isBlank : isBlank first = true := by
        by_contra other
        simp [other] at blank
      have unexpected : expectedBody? state (first :: text) = none := by
        unfold expectedBody? takeUrlBody?
        rw [blank]
        exact ite_self none
      have read := next?_of_starts unexpected (.space isBlank)
      rw [blank] at read
      rw [scanFrom_of_next? read]
      simp

/-- A mark parts a text: before it stand the tokens of the text before it, if they are
closed, and behind it those of the text behind it. -/
theorem scanFrom_append_mark
    {state : UrlState}
    {source : Text}
    (plain : source.getLast? ≠ some '\\')
    (closed : AreClosed (scanFrom state source))
    (opened : state = .opened → closeParen ∈ scanFrom state source) :
    scanFrom state (source ++ c :: rest) =
      scanFrom state source ++ mark :: scanFrom .outside rest := by
  fun_induction scanFrom state source with
  | case1 state source ended =>
      have nothing : source = [] := by
        by_contra nonempty
        obtain ⟨token, left, reading⟩ := exists_next? state nonempty
        rw [reading] at ended
        cases ended
      subst nothing
      have notOpened : state ≠ .opened := fun same => absurd (opened same) List.not_mem_nil
      have unexpected : expectedBody? state (c :: rest) = none := if_neg notOpened
      rw [List.nil_append, scanFrom_of_next? (next?_of_starts unexpected (isMark.starts rest)),
        isMark.after]
      rfl
  | case2 state source token left reading inductionHypothesis =>
      have begins : state = .opened → source.dropWhile isBlank ≠ [] := by
        intro same blank
        have member := opened same
        rw [← scanFrom_of_next? reading] at member
        exact closeParen_not_mem_of_blank blank member
      have ends : ∀ body, expectedBody? state source ≠ some (body, []) := by
        intro body expected
        have read := next?_of_expected expected
        rw [reading] at read
        obtain ⟨rfl, rfl⟩ := Prod.mk.inj (Option.some.inj read)
        have isOpened : state = .opened := by
          by_contra other
          simp [expectedBody?, other] at expected
        have member := opened isOpened
        simp at member
      have read := next?_append_mark isMark rest reading plain
        (closed.terminated token List.mem_cons_self) begins ends
      have shorter : left.getLast? ≠ some '\\' := by
        rw [← next?_append reading] at plain
        exact getLast?_ne_of_append _ plain
      rw [scanFrom_of_next? read, after_append_mark isMark, List.cons_append]
      congr 1
      apply inductionHypothesis shorter closed.tail
      intro nextOpened
      have paren := eq_openParen_of_after nextOpened
      exact closed.calls [] _ (by rw [paren]; rfl)

end

end CssRescale.Token
