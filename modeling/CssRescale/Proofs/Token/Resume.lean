import CssRescale.Proofs.Token.Alike

/-!
Contract: tokens are read again before a text in the place of the one after them.

Of the tokens that are no numbers only a sign and an exclamation mark notice that
a number which starts with a digit stands where another number stood.

Owns: every reader before a text in the place of the one after its token, and the
law that a token other than a number is read again before every text that resumes
where the text after it stood.

Does not own: numbers.
-/

set_option autoImplicit false

namespace CssRescale.Token

open Text (headIs headIs_append endsRun takeEscaped startsWithDigit startsWithDigit_eq)
open Numeral (startsFraction)

/-! ## The readers again -/

theorem readSpace_resume
    (source : Text)
    {left : Text}
    (ends : headIs isBlank left = false) :
    readSpace (source.takeWhile isBlank ++ left) = (space (source.takeWhile isBlank), left) := by
  have all : ∀ c ∈ source.takeWhile isBlank, isBlank c = true :=
    List.all_eq_true.mp List.all_takeWhile
  obtain ⟨taken, dropped⟩ := Text.takeWhile_run all ends
  rw [readSpace, taken, dropped]

theorem takeEscaped_resume
    {stops : Char → Bool}
    {source left : Text}
    (ends : endsRun stops left = true)
    (ended : (takeEscaped stops source).2 = [] → left = []) :
    takeEscaped stops ((takeEscaped stops source).1 ++ left) =
      ((takeEscaped stops source).1, left) :=
  Text.takeEscaped_run (Text.takeEscaped_taken stops source) ends fun lone =>
    ended (Text.takeEscaped_eq_nil_of_endsInBackslash lone)

/-- A terminated string is taken whole before every text, another one before nothing. -/
theorem takeString_resume
    {quote : Char}
    {source left : Text}
    (ordinary : quote ≠ '\\')
    (ended : (takeString quote source).2.2 = [] → left = []) :
    takeString quote ((takeString quote source).1 ++ left) =
      ((takeString quote source).1, (takeString quote source).2.1, left) := by
  have stopped := Text.endsRun_takeEscaped (· == quote) source
  have alone := Text.takeEscaped_taken (· == quote) source
  unfold takeString at ended ⊢
  split at ended
  next body taking =>
    have whole : takeEscaped (· == quote) body = (body, []) := by simpa only [taking] using alone
    simp only [ended rfl, List.append_nil, whole]
  next body closing rest taking =>
    have plain : ('\\' == quote) = false := beq_false_of_ne ordinary.symm
    rw [taking, endsRun_eq_headIs plain] at stopped
    have ends : endsRun (· == quote) (closing :: left) = true := by
      rw [endsRun_eq_headIs plain]
      simpa [headIs] using stopped
    have goesOn : (takeEscaped (· == quote) source).2 = [] → closing :: left = [] := by
      simp [taking]
    have again := takeEscaped_resume ends goesOn
    rw [taking] at again
    simp only [List.append_assoc, List.singleton_append, again]

theorem takeComment_ne_nil (first : Char) (rest : Text) : (takeComment (first :: rest)).1 ≠ [] := by
  unfold takeComment
  split <;> simp_all

/-- A terminated comment is taken whole before every text, another one before nothing. -/
theorem takeComment_resume
    {source left : Text}
    (ended : (takeComment source).2.2 = [] → left = []) :
    takeComment ((takeComment source).1 ++ left) =
      ((takeComment source).1, (takeComment source).2.1, left) := by
  fun_induction takeComment source with
  | case1 =>
      rw [ended rfl]
      rfl
  | case2 rest => rfl
  | case3 first rest unclosed taken terminated remaining taking inductionHypothesis =>
      rw [taking] at inductionHypothesis
      have shorter := inductionHypothesis ended
      have whole := takeComment_append rest
      rw [taking] at whole
      have stillUnclosed : ∀ tail, first = '*' → taken ++ left = '/' :: tail → False := by
        intro tail star slash
        cases rest with
        | nil =>
            simp only [takeComment, Prod.mk.injEq] at taking
            rw [← taking.1, ended taking.2.2.symm] at slash
            cases slash
        | cons second others =>
            have nonempty : taken ≠ [] := by
              have some := takeComment_ne_nil second others
              rwa [taking] at some
            obtain ⟨_, tail', rfl⟩ := List.exists_cons_of_ne_nil nonempty
            apply unclosed others star
            rw [← (List.cons.inj whole).1, (List.cons.inj slash).1]
      rw [List.cons_append, takeComment]
      · simp only [shorter]
      · exact stillUnclosed

/-- A word is taken whole before a text that resumes where the text after it stood. -/
theorem readWord_resume
    {source rest : Text}
    (resumes : Resumes (readWord source).2 rest) :
    readWord ((readWord source).1.text ++ rest) = ((readWord source).1, rest) := by
  have ends : endsRun endsWord rest = true :=
    resumes.endsRun avoidsNumbers_endsWord rfl (Text.endsRun_takeEscaped endsWord source)
  have ended : (takeEscaped endsWord source).2 = [] → rest = [] := by
    intro none
    have nothing : (readWord source).2 = [] := none
    exact (nothing ▸ resumes).eq_nil
  have again := takeEscaped_resume ends ended
  simp only [readWord, text, again]

/-- The characters that end an identifier unless they are escaped. -/
def endsIdentifier (c : Char) : Bool := !continuesIdentifier c

theorem takeIdentifier_eq (source : Text) :
    takeIdentifier source = takeEscaped endsIdentifier source := rfl

/-! ## The conditions again -/

theorem startsNumber_of_unsigned
    {first : Char}
    (unsigned : isSign first = false)
    (rest : Text) :
    startsNumber (first :: rest) = (first.isDigit || (first == '.' && startsWithDigit rest)) := by
  have unsigned : Text.takeSign (first :: rest) = ([], first :: rest) := by
    simp [Text.takeSign, unsigned]
  rw [startsNumber_eq, unsigned]
  by_cases point : first = '.'
  · subst point
    rfl
  · simp [startsWithDigit, Numeral.startsFraction_of_ne point, point]

/-- What starts as a word still does before a text that ends the word as well. -/
theorem startsNumber_word_resume
    {first : Char}
    {raw left rest : Text}
    (unsigned : isSign first = false)
    (noNumber : startsNumber (first :: (raw ++ left)) = false)
    (ends : endsRun endsWord rest = true) :
    startsNumber (first :: (raw ++ rest)) = false := by
  rw [startsNumber_of_unsigned unsigned, Bool.or_eq_false_iff] at noNumber ⊢
  refine ⟨noNumber.1, ?_⟩
  cases raw with
  | cons second others => exact noNumber.2
  | nil =>
      have noDigit := avoidsNumbers_endsWord.startsWithDigit rfl ends
      rw [List.nil_append, noDigit, Bool.and_false]

theorem startsNumber_of_sign
    {first : Char}
    (signed : isSign first = true)
    (rest : Text) :
    startsNumber (first :: rest) = (startsWithDigit rest || startsFraction rest) := by
  have taken : Text.takeSign (first :: rest) = ([first], rest) := by simp [Text.takeSign, signed]
  rw [startsNumber_eq, taken]

theorem followsDash_of_endsWord {c : Char} (stops : endsWord c = true) : followsDash c = false := by
  simp only [endsWord, isBlank, isQuote, Bool.or_eq_true, beq_iff_eq, or_assoc] at stops
  rcases stops with rfl | rfl | rfl | rfl | rfl | rfl | rfl | rfl | rfl | rfl | rfl | rfl | rfl |
    rfl | rfl | rfl | rfl | rfl
  all_goals rfl

theorem startsDashedWord_cons (first : Char) (rest : Text) :
    startsDashedWord (first :: rest) = (first == '-' && headIs followsDash rest) := by
  unfold startsDashedWord
  split
  next second tail same =>
    simp only [List.cons.injEq] at same
    obtain ⟨rfl, rfl⟩ := same
    rfl
  next shape =>
    cases rest with
    | nil => simp [headIs]
    | cons second tail =>
        have other : first ≠ '-' := by
          intro hyphen
          exact shape second tail (by rw [hyphen])
        simp [other]

theorem startsComment_cons (first : Char) (rest : Text) :
    startsComment (first :: rest) = (first == '/' && headIs (· == '*') rest) := by
  unfold startsComment
  split
  next tail same =>
    simp only [List.cons.injEq] at same
    obtain ⟨rfl, rfl⟩ := same
    rfl
  next shape =>
    cases rest with
    | nil => simp [headIs]
    | cons second tail =>
        cases both : (first == '/' && headIs (· == '*') (second :: tail)) with
        | false => rfl
        | true =>
            simp only [headIs, Bool.and_eq_true, beq_iff_eq] at both
            exact absurd (by rw [both.1, both.2]) (shape tail)

/-! ## Tokens -/

/-- The tokens that take in a digit that follows them: the signs, exclamation
marks, and numbers unless their unit is the percent sign. -/
def absorbsDigit : Token → Bool
  | operator raw => raw == ['+'] || raw == ['-'] || headIs (· == '!') raw
  | number _ unit => unit != ['%']
  | _ => false

/-- A single operator is one before every text that resumes where the text after it stood. -/
theorem Starts.operator_resume
    {first : Char}
    {left rest : Text}
    (operator : isOperator first = true)
    (noComment : startsComment (first :: left) = false)
    (noNumber : startsNumber (first :: left) = false)
    (noDash : startsDashedWord (first :: left) = false)
    (resumes : Resumes left rest)
    (apart : isSign first = true → Alike left rest) :
    Starts first rest (.operator [first], rest) := by
  have stillNoComment : startsComment (first :: rest) = false := by
    have avoids : AvoidsNumbers (· == '*') := avoidsNumbers_eq rfl rfl
    rw [startsComment_cons, ← resumes.headIs_eq avoids, ← startsComment_cons]
    exact noComment
  by_cases signed : isSign first = true
  · have alike := apart signed
    refine .operator operator stillNoComment ?_ ?_
    · rw [startsNumber_of_sign signed] at noNumber ⊢
      rw [startsWithDigit_eq, ← alike.headIs_eq, ← alike.startsFraction_eq, ← startsWithDigit_eq]
      exact noNumber
    · rw [startsDashedWord_cons] at noDash ⊢
      rw [← alike.headIs_eq]
      exact noDash
  · rw [Bool.not_eq_true] at signed
    refine .operator operator stillNoComment ?_ ?_
    · rw [startsNumber_of_unsigned signed] at noNumber ⊢
      have noPoint : first ≠ '.' := by
        intro equal
        subst equal
        exact absurd operator (by decide)
      simp only [Bool.or_eq_false_iff] at noNumber
      simp [noNumber.1, noPoint]
    · have noHyphen : first ≠ '-' := by
        intro equal
        subst equal
        exact absurd signed (by decide)
      simp [startsDashedWord_cons, noHyphen]

theorem exists_readWord
    {first : Char}
    (goesOn : endsWord first = false)
    (source : Text) :
    ∃ raw, (readWord (first :: source)).1 = word (first :: raw) ∧
      raw ++ (readWord (first :: source)).2 = source := by
  have nonempty : (takeEscaped endsWord (first :: source)).1 ≠ [] :=
    Text.takeEscaped_ne_nil source goesOn
  have whole := readWord_append (first :: source)
  obtain ⟨head, raw, taken⟩ := List.exists_cons_of_ne_nil nonempty
  have read : (readWord (first :: source)).1 = word (head :: raw) := by
    simp only [readWord, taken]
  rw [read] at whole
  obtain ⟨rfl, tail⟩ := List.cons.inj whole
  exact ⟨raw, read, tail⟩

theorem isSign_eq_false_of_isOperator_eq_false
    {first : Char}
    (noOperator : isOperator first = false) :
    isSign first = false := by
  simp only [isOperator, Bool.or_eq_false_iff] at noOperator
  simp [isSign, noOperator]

theorem Starts.string_resume
    {first : Char}
    {source rest : Text}
    (quote : isQuote first = true)
    (ended : (takeString first source).2.2 = [] → rest = []) :
    Starts first ((takeString first source).1 ++ rest)
      (.string (first :: (takeString first source).1) (takeString first source).2.1, rest) := by
  have ordinary : first ≠ '\\' := ne_of_isQuote quote rfl
  have read : readString first ((takeString first source).1 ++ rest) =
      (.string (first :: (takeString first source).1) (takeString first source).2.1, rest) := by
    simp only [readString, takeString_resume ordinary ended]
  rw [← read]
  exact .string quote

theorem Starts.comment_resume
    {body rest : Text}
    (ended : (takeComment body).2.2 = [] → rest = []) :
    Starts '/' ('*' :: ((takeComment body).1 ++ rest))
      (.comment ('/' :: '*' :: (takeComment body).1) (takeComment body).2.1, rest) := by
  have read : readComment ((takeComment body).1 ++ rest) =
      (.comment ('/' :: '*' :: (takeComment body).1) (takeComment body).2.1, rest) := by
    simp only [readComment, takeComment_resume ended]
  rw [← read]
  exact .comment

theorem Starts.mark_resume
    {source rest : Text}
    (ends : endsRun endsIdentifier rest = true)
    (ended : (takeEscaped endsIdentifier source).2 = [] → rest = []) :
    Starts '!' ((takeEscaped endsIdentifier source).1 ++ rest)
      (.operator ('!' :: (takeEscaped endsIdentifier source).1), rest) := by
  have read : readMark ((takeEscaped endsIdentifier source).1 ++ rest) =
      (.operator ('!' :: (takeEscaped endsIdentifier source).1), rest) := by
    simp only [readMark, takeIdentifier_eq, takeEscaped_resume ends ended]
  rw [← read]
  exact .mark

/-- A word with a hyphen in front still has the character after it that makes it one. -/
theorem Starts.dashedWord_resume
    {source rest : Text}
    (dashed : startsDashedWord ('-' :: source) = true)
    (resumes : Resumes (readWord ('-' :: source)).2 rest) :
    ∃ again, (readWord ('-' :: source)).1.text ++ rest = '-' :: again ∧
      Starts '-' again ((readWord ('-' :: source)).1, rest) := by
  obtain ⟨raw, read, whole⟩ := exists_readWord (show endsWord '-' = false from rfl) source
  have ends := Text.endsRun_takeEscaped endsWord ('-' :: source)
  have again := readWord_resume resumes
  rw [read] at again ⊢
  refine ⟨raw ++ rest, rfl, ?_⟩
  rw [← again]
  refine .dashedWord ?_
  rw [startsDashedWord_cons, ← whole] at dashed
  rw [startsDashedWord_cons]
  cases raw with
  | cons second others => exact dashed
  | nil =>
      change endsRun endsWord (readWord ('-' :: source)).2 = true at ends
      generalize (readWord ('-' :: source)).2 = left at dashed ends
      rw [endsRun_eq_headIs rfl] at ends
      cases left with
      | nil => cases dashed
      | cons second left =>
          have follows : followsDash second = true := by simpa [headIs] using dashed
          have stops : endsWord second = true := by simpa [headIs] using ends
          rw [followsDash_of_endsWord stops] at follows
          cases follows

theorem Starts.word_resume
    {first : Char}
    {source rest : Text}
    (goesOn : endsWord first = false)
    (noOperator : isOperator first = false)
    (noNumber : startsNumber (first :: source) = false)
    (resumes : Resumes (readWord (first :: source)).2 rest) :
    ∃ again, (readWord (first :: source)).1.text ++ rest = first :: again ∧
      Starts first again ((readWord (first :: source)).1, rest) := by
  obtain ⟨raw, read, whole⟩ := exists_readWord goesOn source
  have ends : endsRun endsWord rest = true :=
    resumes.endsRun avoidsNumbers_endsWord rfl (Text.endsRun_takeEscaped endsWord (first :: source))
  have again := readWord_resume resumes
  rw [read] at again ⊢
  refine ⟨raw ++ rest, rfl, ?_⟩
  rw [← again]
  refine .word goesOn noOperator ?_ ?_
  · have unsigned := isSign_eq_false_of_isOperator_eq_false noOperator
    exact startsNumber_word_resume unsigned (whole ▸ noNumber) ends
  · have noHyphen : first ≠ '-' := by
      intro equal
      subst equal
      exact absurd noOperator (by decide)
    simp [startsDashedWord_cons, noHyphen]

/-- A token that is no number is read again before every text that resumes where
the text after it stood; where the token takes in digits, none may have come. -/
theorem Starts.resume
    {first : Char}
    {source left rest : Text}
    {token : Token}
    (starts : Starts first source (token, left))
    (other : token.isNumber = false)
    (resumes : Resumes left rest)
    (apart : token.absorbsDigit = true → Alike left rest) :
    ∃ again, token.text ++ rest = first :: again ∧ Starts first again (token, rest) := by
  have ended : left = [] → rest = [] := by
    intro none
    exact (none ▸ resumes).eq_nil
  generalize result : (token, left) = parts at starts
  cases starts with
  | space blank =>
      simp only [readSpace, Prod.mk.injEq] at result
      obtain ⟨rfl, rfl⟩ := result
      have ends : headIs isBlank rest = false := by
        rw [← resumes.headIs_eq avoidsNumbers_isBlank]
        exact Text.headIs_dropWhile isBlank _
      have again := readSpace_resume (first :: source) ends
      simp only [List.takeWhile_cons, blank, if_true] at again ⊢
      refine ⟨source.takeWhile isBlank ++ rest, rfl, ?_⟩
      rw [← again]
      exact .space blank
  | string quote =>
      simp only [readString, Prod.mk.injEq] at result
      obtain ⟨rfl, rfl⟩ := result
      exact ⟨_, rfl, .string_resume quote ended⟩
  | @comment body =>
      simp only [readComment, Prod.mk.injEq] at result
      obtain ⟨rfl, rfl⟩ := result
      exact ⟨_, rfl, .comment_resume ended⟩
  | openParen =>
      simp only [Prod.mk.injEq] at result
      obtain ⟨rfl, rfl⟩ := result
      exact ⟨rest, rfl, .openParen⟩
  | closeParen =>
      simp only [Prod.mk.injEq] at result
      obtain ⟨rfl, rfl⟩ := result
      exact ⟨rest, rfl, .closeParen⟩
  | comma =>
      simp only [Prod.mk.injEq] at result
      obtain ⟨rfl, rfl⟩ := result
      exact ⟨rest, rfl, .comma⟩
  | mark =>
      simp only [readMark, takeIdentifier_eq, Prod.mk.injEq] at result
      obtain ⟨rfl, rfl⟩ := result
      have ends : endsRun endsIdentifier rest = true := by
        rw [← (apart rfl).endsRun_eq]
        exact Text.endsRun_takeEscaped endsIdentifier source
      exact ⟨_, rfl, .mark_resume ends ended⟩
  | number =>
      simp only [readNumber, Prod.mk.injEq] at result
      rw [result.1] at other
      cases other
  | dashedWord dashed =>
      obtain rfl := first_of_startsDashedWord dashed
      obtain ⟨rfl, rfl⟩ := Prod.mk.inj result
      exact Starts.dashedWord_resume dashed resumes
  | operator operator noComment noNumber noDash =>
      simp only [Prod.mk.injEq] at result
      obtain ⟨rfl, rfl⟩ := result
      refine ⟨rest, rfl, .operator_resume operator noComment noNumber noDash resumes ?_⟩
      intro signed
      simp only [isSign, Bool.or_eq_true, beq_iff_eq] at signed
      rcases signed with rfl | rfl <;> exact apart rfl
  | word goesOn noOperator noNumber noDash =>
      obtain ⟨rfl, rfl⟩ := Prod.mk.inj result
      exact Starts.word_resume goesOn noOperator noNumber resumes

/-! ## Steps of a scan -/

/-- The characters that no unquoted body of a URL starts with. -/
def quotesBody (c : Char) : Bool := isQuote c || c == ')'

theorem avoidsNumbers_quotesBody : AvoidsNumbers quotesBody := by
  apply avoidsNumbers_of_all _ rfl
  intro c digit
  simp [quotesBody, (Plain.of_isDigit digit []).quote, ne_of_isDigit digit]

/-- There is no unquoted body if nothing follows the white space, or a quote or parenthesis. -/
theorem takeUrlBody?_eq_none_iff (source : Text) :
    takeUrlBody? source = none ↔
      source.dropWhile isBlank = [] ∨ headIs quotesBody (source.dropWhile isBlank) = true := by
  unfold takeUrlBody?
  split
  next ended => simp [ended]
  next first rest shape =>
    rw [shape]
    by_cases quotes : quotesBody first = true
    · have condition : (isQuote first || first == ')') = true := quotes
      simp [condition, headIs, quotes]
    · have condition : (isQuote first || first == ')') = false := Bool.not_eq_true _ ▸ quotes
      simp [condition, headIs, quotes]

theorem takeUrlBody?_eq_some
    {source body left : Text}
    (taking : takeUrlBody? source = some (body, left)) :
    takeEscaped (· == ')') source = (body, left) := by
  unfold takeUrlBody? at taking
  split at taking
  · cases taking
  · split at taking
    · cases taking
    · exact Option.some.inj taking

/-- The body of a URL ends at the end or before a parenthesis that closes. -/
theorem left_of_takeUrlBody?
    {source body left : Text}
    (taking : takeUrlBody? source = some (body, left)) :
    left = [] ∨ ∃ rest, left = ')' :: rest := by
  have stopped := Text.endsRun_takeEscaped (· == ')') source
  rw [takeUrlBody?_eq_some taking, endsRun_eq_headIs rfl] at stopped
  cases left with
  | nil => exact .inl rfl
  | cons closing rest =>
      have parenthesis : closing = ')' := eq_of_beq stopped
      exact .inr ⟨rest, by rw [parenthesis]⟩

theorem dropWhile_of_headIs
    {holds : Char → Bool}
    {text : Text}
    (other : headIs holds text = false) :
    text.dropWhile holds = text := by
  cases text with
  | nil => rfl
  | cons first rest =>
      have stops : holds first = false := other
      simp [stops]

/-- A text without the body of a URL has none after the replacement either. -/
theorem takeUrlBody?_eq_none_resume
    {first : Char}
    {source left rest : Text}
    {token : Token}
    (starts : Starts first source (token, left))
    (whole : token.text ++ left = first :: source)
    (nonempty : token.text ≠ [])
    (none : takeUrlBody? (first :: source) = none)
    (resumes : Resumes left rest) :
    takeUrlBody? (token.text ++ rest) = Option.none := by
  rw [takeUrlBody?_eq_none_iff] at none ⊢
  by_cases blank : isBlank first = true
  · have read : readSpace (first :: source) = (token, left) := by
      rw [← starts.nextOf_eq]
      simp [nextOf, blank]
    simp only [readSpace, Prod.mk.injEq] at read
    obtain ⟨rfl, rfl⟩ := read
    have ends : headIs isBlank rest = false := by
      rw [← resumes.headIs_eq avoidsNumbers_isBlank]
      exact Text.headIs_dropWhile isBlank _
    have all : ∀ c ∈ (first :: source).takeWhile isBlank, isBlank c = true :=
      List.all_eq_true.mp List.all_takeWhile
    rw [text, (Text.takeWhile_run all ends).2, ← resumes.headIs_eq avoidsNumbers_quotesBody]
    rcases none with ended | quotes
    · exact Or.inl (ended ▸ resumes).eq_nil
    · exact Or.inr quotes
  · -- The first character decides, and it is still there.
    obtain ⟨head, tail, shape⟩ := List.exists_cons_of_ne_nil nonempty
    have same : head = first := (List.cons.inj (shape ▸ whole)).1
    rw [shape, same]
    simpa [blank, headIs] using none

/-- The body of a URL is taken again before every text that resumes where the
text after it stood. -/
theorem takeUrlBody?_resume
    {source body left rest : Text}
    (taking : takeUrlBody? source = some (body, left))
    (resumes : Resumes left rest) :
    takeUrlBody? (body ++ rest) = some (body, rest) := by
  have avoids : AvoidsNumbers (· == ')') := avoidsNumbers_eq rfl rfl
  have taken := takeUrlBody?_eq_some taking
  have stopped := Text.endsRun_takeEscaped (· == ')') source
  rw [taken] at stopped
  have again : takeEscaped (· == ')') (body ++ rest) = (body, rest) := by
    have ended : (takeEscaped (· == ')') source).2 = [] → rest = [] := by
      intro none
      have nothing : left = [] := by rwa [taken] at none
      exact (nothing ▸ resumes).eq_nil
    have run := takeEscaped_resume (resumes.endsRun avoids rfl stopped) ended
    rw [taken] at run
    exact run
  have present : ¬takeUrlBody? (body ++ rest) = none := by
    intro none
    have absent : ¬takeUrlBody? source = Option.none := by simp [taking]
    rw [takeUrlBody?_eq_none_iff, List.dropWhile_append] at none
    rw [← takeUrlBody?_append taking, takeUrlBody?_eq_none_iff, List.dropWhile_append] at absent
    apply absent
    by_cases blank : body.dropWhile isBlank = []
    · -- Nothing but white space would be in the body, and what ends it is not white space.
      rcases left_of_takeUrlBody? taking with rfl | ⟨behind, rfl⟩
      · simp [blank]
      · exact Or.inr (by simp [blank]; rfl)
    · have some : (body.dropWhile isBlank).isEmpty = false := by simpa using blank
      rw [some] at none ⊢
      simp only [Bool.false_eq_true, if_false] at none ⊢
      rw [headIs_append quotesBody blank] at none ⊢
      refine none.imp (fun ended => ?_) id
      exact absurd (List.append_eq_nil_iff.mp ended).1 blank
  cases result : takeUrlBody? (body ++ rest) with
  | none => exact absurd result present
  | some parts => rw [← again, takeUrlBody?_eq_some result]

/-- A step that reads no number reads the same token again. -/
theorem next?_resume
    {state : UrlState}
    {source left rest : Text}
    {token : Token}
    (reading : next? state source = some (token, left))
    (other : token.isNumber = false)
    (resumes : Resumes left rest)
    (apart : token.absorbsDigit = true → Alike left rest) :
    next? state (token.text ++ rest) = some (token, rest) := by
  rcases next?_cases reading with ⟨body, rfl, expected⟩ | ⟨first, source, rfl, unexpected, starts⟩
  · refine next?_of_expected ?_
    unfold expectedBody? at expected ⊢
    split at expected
    next opened =>
      rw [if_pos opened]
      exact takeUrlBody?_resume expected resumes
    next => cases expected
  · obtain ⟨again, same, startsAgain⟩ := starts.resume other resumes apart
    rw [same]
    refine next?_of_starts ?_ startsAgain
    unfold expectedBody? at unexpected ⊢
    split at unexpected
    next opened =>
      rw [if_pos opened, ← same]
      exact takeUrlBody?_eq_none_resume starts (next?_append reading) (next?_text_ne_nil reading)
        unexpected resumes
    next closed => rw [if_neg closed]

end CssRescale.Token
