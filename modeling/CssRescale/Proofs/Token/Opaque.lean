import CssRescale.Proofs.Token.Number
import CssRescale.Proofs.Token.Reached

/-!
Contract: the extent of the tokens whose contents are not looked into.

A backslash makes a pair with the character after it, and what closes a string or the body
of a URL is not the second half of a pair. A comment knows no pairs. A word that is no body
of a URL has white space, quotes, parentheses and commas only as second halves.

Owns:
- the characters of a text that are not second halves of pairs;
- the extent of strings and comments, by the text behind them;
- the extent of words, by the tokens before them and the text behind them.
-/

set_option autoImplicit false

namespace CssRescale

namespace Text

/-! ## Pairs -/

/-- The characters of a text without the second halves of its pairs. -/
def unpaired : Text → Text
  | [] => []
  | '\\' :: _ :: rest => '\\' :: unpaired rest
  | first :: rest => first :: unpaired rest

/-- A run goes up to a character if that is not found in it unpaired, and the text behind it
starts with that character, unpaired, or is empty. -/
structure RunsUpTo (stop : Char) (run following : Text) : Prop where
  absent : stop ∉ unpaired run
  stopped : following = [] ∨
    ∃ rest, following = stop :: rest ∧ unpaired (run ++ [stop]) = unpaired run ++ [stop]

theorem unpaired_cons
    {first : Char}
    {rest : Text}
    (alone : first = '\\' → rest = []) :
    unpaired (first :: rest) = first :: unpaired rest := by
  rw [unpaired]
  intro escaped tail backslash pair
  rw [alone backslash] at pair
  cases pair

/-- A run with pairs takes nothing unpaired at which it stops. -/
theorem stops_of_mem_unpaired
    {stops : Char → Bool}
    {source : Text}
    {c : Char}
    (plain : stops '\\' = false)
    (member : c ∈ unpaired (takeEscaped stops source).1) :
    stops c = false := by
  fun_induction takeEscaped stops source with
  | case1 => cases member
  | case2 escaped rest taken left taking inductionHypothesis =>
      rw [taking] at inductionHypothesis
      rcases List.mem_cons.mp member with rfl | member
      · exact plain
      · exact inductionHypothesis member
  | case3 => cases member
  | case4 first rest unescaped goesOn taken left taking inductionHypothesis =>
      rw [taking] at inductionHypothesis
      have alone : first = '\\' → taken = [] := by
        intro backslash
        cases rest with
        | nil => exact (congrArg Prod.fst taking).symm
        | cons second others => exact absurd rfl (unescaped second others backslash)
      rw [unpaired_cons alone] at member
      rcases List.mem_cons.mp member with rfl | member
      · simpa using goesOn
      · exact inductionHypothesis member

/-- What stops a run with pairs is unpaired itself. -/
theorem unpaired_takeEscaped_append
    {stops : Char → Bool}
    {source rest : Text}
    {stop : Char}
    (stopped : (takeEscaped stops source).2 = stop :: rest) :
    unpaired ((takeEscaped stops source).1 ++ [stop]) =
      unpaired (takeEscaped stops source).1 ++ [stop] := by
  fun_induction takeEscaped stops source with
  | case1 => cases stopped
  | case2 escaped others taken left taking inductionHypothesis =>
      rw [taking] at inductionHypothesis
      exact congrArg _ (inductionHypothesis stopped)
  | case3 => exact unpaired_cons fun _ => rfl
  | case4 first others unescaped goesOn taken left taking inductionHypothesis =>
      rw [taking] at inductionHypothesis
      have ordinary : first ≠ '\\' := by
        intro backslash
        cases others with
        | nil =>
            rw [← congrArg Prod.snd taking] at stopped
            cases stopped
        | cons second others => exact unescaped second others backslash rfl
      rw [List.cons_append, unpaired_cons fun backslash => absurd backslash ordinary,
        unpaired_cons fun backslash => absurd backslash ordinary, inductionHypothesis stopped]
      rfl

/-- A run with pairs goes up to the character it stops at. -/
theorem runsUpTo_takeEscaped
    {stop : Char}
    (ordinary : stop ≠ '\\')
    (source : Text) :
    RunsUpTo stop (takeEscaped (· == stop) source).1 (takeEscaped (· == stop) source).2 := by
  have plain : ('\\' == stop) = false := beq_false_of_ne ordinary.symm
  refine ⟨fun member => ?_, ?_⟩
  · have goesOn : (stop == stop) = false := @stops_of_mem_unpaired (· == stop) _ _ plain member
    exact absurd (beq_self_eq_true stop) (by rw [goesOn]; exact nofun)
  · have ends := endsRun_takeEscaped (· == stop) source
    rw [Token.endsRun_eq_headIs plain] at ends
    cases left : (takeEscaped (· == stop) source).2 with
    | nil => exact .inl rfl
    | cons first rest =>
        rw [left] at ends
        obtain rfl : first = stop := eq_of_beq (by simpa [headIs] using ends)
        exact .inr ⟨rest, rfl, unpaired_takeEscaped_append left⟩

end Text

namespace Token

open Text (RunsUpTo unpaired takeEscaped)

/-! ## Strings -/

/-- What stands before a text is a string token. It starts with a quote and goes up to the
first one like it that is unpaired, with that one if there is one. -/
inductive IsStringBefore (following : Text) : Text → Bool → Prop where
  | terminated {quote : Char} {body : Text}
      (isQuote : isQuote quote = true)
      (runs : RunsUpTo quote body (quote :: following)) :
      IsStringBefore following (quote :: (body ++ [quote])) true
  | unterminated {quote : Char} {body : Text}
      (isQuote : isQuote quote = true)
      (runs : RunsUpTo quote body [])
      (ended : following = []) :
      IsStringBefore following (quote :: body) false

theorem isStringBefore_readString
    {quote : Char}
    {rest raw left : Text}
    {terminated : Bool}
    (isQuote : isQuote quote = true)
    (read : readString quote rest = (string raw terminated, left)) :
    IsStringBefore left raw terminated := by
  have runs := Text.runsUpTo_takeEscaped (ne_of_isQuote isQuote rfl) rest
  unfold readString takeString at read
  cases taking : takeEscaped (· == quote) rest with
  | mk body remaining =>
      rw [taking] at read runs
      cases remaining with
      | nil =>
          cases read
          exact .unterminated isQuote runs rfl
      | cons closing remaining =>
          obtain rfl : closing = quote := by
            rcases runs.stopped with none | ⟨_, same, -⟩
            · cases none
            · exact (List.cons.inj same).1
          cases read
          exact .terminated isQuote runs

/-! ## Comments -/

/-- What stands before a text is a comment token. Behind its opening it goes up to the first
closing, with that if there is one. -/
inductive IsCommentBefore (following : Text) : Text → Bool → Prop where
  | terminated {body : Text}
      (first : ¬['*', '/'] <:+: body ++ ['*']) :
      IsCommentBefore following ('/' :: '*' :: (body ++ ['*', '/'])) true
  | unterminated {body : Text}
      (absent : ¬['*', '/'] <:+: body)
      (ended : following = []) :
      IsCommentBefore following ('/' :: '*' :: body) false

/-- A character in front of a text makes no closing with it, unless it is a star before a
slash. -/
theorem not_infix_cons
    {first : Char}
    {text : Text}
    (apart : first = '*' → ∀ tail, text ≠ '/' :: tail)
    (absent : ¬['*', '/'] <:+: text) :
    ¬['*', '/'] <:+: first :: text := by
  rw [List.infix_cons_iff]
  rintro (⟨tail, same⟩ | inside)
  · obtain ⟨rfl, slash⟩ := List.cons.inj same
    exact apart rfl tail slash.symm
  · exact absent inside

/-- What is taken of a comment ends with the first closing, or has none and is all. -/
theorem takeComment_cases (source : Text) :
    (∃ body, (takeComment source).1 = body ++ ['*', '/'] ∧ (takeComment source).2.1 = true ∧
        ¬['*', '/'] <:+: body ++ ['*']) ∨
      (takeComment source).2.1 = false ∧ (takeComment source).2.2 = [] ∧
        ¬['*', '/'] <:+: (takeComment source).1 := by
  fun_induction takeComment source with
  | case1 => exact .inr ⟨rfl, rfl, by simp⟩
  | case2 rest => exact .inl ⟨[], rfl, rfl, by decide⟩
  | case3 first rest unclosed taken terminated left taking inductionHypothesis =>
      have whole := takeComment_append rest
      rw [taking] at inductionHypothesis whole
      -- The text behind a star that closes nothing starts with no slash.
      have apart : ∀ front back, front ++ back = rest →
          first = '*' → ∀ tail, front ≠ '/' :: tail := by
        rintro front back rfl star tail rfl
        exact unclosed _ star rfl
      rcases inductionHypothesis with ⟨body, rfl, rfl, closed⟩ | ⟨rfl, rfl, absent⟩
      · refine .inl ⟨first :: body, rfl, rfl, not_infix_cons (apart _ ('/' :: left) ?_) closed⟩
        rw [← whole]
        simp
      · exact .inr ⟨rfl, rfl, not_infix_cons (apart _ [] whole) absent⟩

theorem isCommentBefore_readComment
    {rest raw left : Text}
    {terminated : Bool}
    (read : readComment rest = (comment raw terminated, left)) :
    IsCommentBefore left raw terminated := by
  have cases := takeComment_cases rest
  unfold readComment at read
  cases taking : takeComment rest with
  | mk taken remaining =>
      obtain ⟨closed, remaining⟩ := remaining
      rw [taking] at read cases
      cases read
      rcases cases with ⟨body, rfl, rfl, first⟩ | ⟨rfl, rfl, absent⟩
      · exact .terminated first
      · exact .unterminated absent rfl

/-! ## Words -/

/-- The characters that no word has but as second halves of pairs. -/
def isDelimiter (c : Char) : Bool :=
  isBlank c || isQuote c || c == '(' || c == ')' || c == ','

theorem isDelimiter_of_endsWord {c : Char} (goesOn : endsWord c = false) :
    isDelimiter c = false := by
  simp only [endsWord, Bool.or_eq_false_iff] at goesOn
  simp [isDelimiter, goesOn]

/-- Directly behind the name of a URL and its parenthesis the text starts, white space
apart, with neither a quote nor a closing parenthesis, and goes on. -/
def ExpectsBody (before : List Token) (following : Text) : Prop :=
  EndsInUrlCall before ∧
    ∃ c ∈ (following.dropWhile isBlank).head?, isQuote c = false ∧ c ≠ ')'

theorem takeUrlBody?_of_head
    {source : Text}
    {c : Char}
    (head : c ∈ (source.dropWhile isBlank).head?)
    (noQuote : isQuote c = false)
    (noParen : c ≠ ')') :
    takeUrlBody? source = some (takeEscaped (· == ')') source) := by
  obtain ⟨rest, shape⟩ := List.head?_eq_some_iff.mp head
  simp [takeUrlBody?, shape, noQuote, noParen]

theorem exists_head_of_takeUrlBody?
    {source : Text}
    {parts : Text × Text}
    (taking : takeUrlBody? source = some parts) :
    ∃ c ∈ (source.dropWhile isBlank).head?, isQuote c = false ∧ c ≠ ')' := by
  unfold takeUrlBody? at taking
  split at taking
  case h_1 => cases taking
  case h_2 first rest shape =>
    split at taking
    case isTrue => cases taking
    case isFalse ordinary =>
      rw [shape]
      refine ⟨first, rfl, ?_⟩
      simpa using ordinary

section

variable
  {source left : Text}
  {state : UrlState}
  {before : List Token}
  (reaches : Reaches .outside source before state left)

include reaches

theorem expectedBody?_of_expectsBody (expects : ExpectsBody before left) :
    expectedBody? state left = some (takeEscaped (· == ')') left) := by
  obtain ⟨call, c, head, noQuote, noParen⟩ := expects
  rw [expectedBody?, if_pos (reaches.opened_iff.mpr call),
    takeUrlBody?_of_head head noQuote noParen]

theorem expectsBody_of_expectedBody?
    {parts : Text × Text}
    (expected : expectedBody? state left = some parts) :
    ExpectsBody before left := by
  unfold expectedBody? at expected
  split at expected
  case isTrue opened => exact ⟨reaches.opened_iff.mp opened, exists_head_of_takeUrlBody? expected⟩
  case isFalse => cases expected

end

theorem isDelimiter_of_readWord
    {source raw left : Text}
    (read : readWord source = (word raw, left)) :
    ∀ c ∈ unpaired raw, isDelimiter c = false := by
  intro c member
  have taken : (takeEscaped endsWord source).1 = raw := by
    cases read
    rfl
  rw [← taken] at member
  exact isDelimiter_of_endsWord (Text.stops_of_mem_unpaired rfl member)

/-! ## The tokens of a text -/

section

variable
  {state : UrlState}
  {source raw left : Text}

theorem readString_of_next?
    {terminated : Bool}
    (reading : next? state source = some (string raw terminated, left)) :
    ∃ quote rest, isQuote quote = true ∧ readString quote rest = (string raw terminated, left) := by
  obtain ⟨first, rest, rfl, starts⟩ := exists_starts_of_next? reading nofun
  exact ⟨first, rest, starts.of_string rfl⟩

theorem readComment_of_next?
    {terminated : Bool}
    (reading : next? state source = some (comment raw terminated, left)) :
    ∃ rest, readComment rest = (comment raw terminated, left) := by
  obtain ⟨first, rest, rfl, starts⟩ := exists_starts_of_next? reading nofun
  exact starts.of_comment rfl

theorem readWord_of_next?
    (reading : next? state source = some (word raw, left))
    (unexpected : expectedBody? state source = none) :
    readWord source = (word raw, left) := by
  rcases next?_cases reading with ⟨body, -, expected⟩ | ⟨first, rest, rfl, -, starts⟩
  · cases unexpected.symm.trans expected
  · exact (starts.of_word rfl).2

end

/-- Tokens whose contents are not looked into have the right extent. A string goes from its
quote to the first unpaired one like it, and a comment to its first closing; without that,
they go to the end. Directly behind the name of a URL and its parenthesis, where the text
goes on after white space with neither a quote nor a closing parenthesis, the next token is
one word up to the first unpaired closing parenthesis. No other word has an unpaired
delimiter. -/
theorem extents_of_scan (source : Text) :
    (∀ before raw terminated after,
        scan source = before ++ string raw terminated :: after →
          IsStringBefore (concat after) raw terminated) ∧
      (∀ before raw terminated after,
        scan source = before ++ comment raw terminated :: after →
          IsCommentBefore (concat after) raw terminated) ∧
      (∀ before after,
        scan source = before ++ after → ExpectsBody before (concat after) →
          ∃ body rest, after = word body :: rest ∧ RunsUpTo ')' body (concat rest)) ∧
      ∀ before raw after,
        scan source = before ++ word raw :: after → ¬ExpectsBody before (raw ++ concat after) →
          ∀ c ∈ unpaired raw, isDelimiter c = false := by
  refine ⟨?strings, ?comments, ?bodies, ?words⟩
  case strings =>
    intro before raw terminated after split
    obtain ⟨state, -, reading⟩ := exists_reaches_next? split
    obtain ⟨quote, rest, isQuote, read⟩ := readString_of_next? reading
    exact isStringBefore_readString isQuote read
  case comments =>
    intro before raw terminated after split
    obtain ⟨state, -, reading⟩ := exists_reaches_next? split
    obtain ⟨rest, read⟩ := readComment_of_next? reading
    exact isCommentBefore_readComment read
  case bodies =>
    intro before after split expects
    obtain ⟨state, reaches, scanned⟩ := exists_reaches split
    have body := next?_of_expected (expectedBody?_of_expectsBody reaches expects)
    rw [scanFrom_of_next? body] at scanned
    refine ⟨_, _, scanned.symm, ?_⟩
    rw [concat_scanFrom]
    exact Text.runsUpTo_takeEscaped (by decide) (concat after)
  case words =>
    intro before raw after split unexpected
    obtain ⟨state, reaches, reading⟩ := exists_reaches_next? split
    have none : expectedBody? state (raw ++ concat after) = none := by
      cases expected : expectedBody? state (raw ++ concat after) with
      | none => rfl
      | some parts => exact absurd (expectsBody_of_expectedBody? reaches expected) unexpected
    exact isDelimiter_of_readWord (readWord_of_next? reading none)

/-- The body of a URL with an escaped parenthesis and a quote, and a string whose only other
quote is escaped. -/
theorem extents_of_scan_escapes :
    scan "URL( 1px\\)\") \"a\\\"".toList =
        [word "URL".toList, openParen] ++ word " 1px\\)\"".toList :: closeParen ::
          space " ".toList :: [string "\"a\\\"".toList false] ∧
      RunsUpTo ')' " 1px\\)\"".toList ") \"a\\\"".toList ∧
      IsStringBefore [] "\"a\\\"".toList false := by
  have tokens : scan "URL( 1px\\)\") \"a\\\"".toList =
      [word "URL".toList, openParen] ++ word " 1px\\)\"".toList :: closeParen ::
        space " ".toList :: [string "\"a\\\"".toList false] := by
    decide +kernel
  obtain ⟨strings, -, bodies, -⟩ := extents_of_scan "URL( 1px\\)\") \"a\\\"".toList
  have call : EndsInUrlCall [word "URL".toList, openParen] :=
    ⟨[word "URL".toList], rfl, [], _, rfl, by decide⟩
  obtain ⟨body, rest, same, runs⟩ := bodies _ _ tokens ⟨call, '1', by decide, by decide, by decide⟩
  obtain ⟨word, rfl⟩ := List.cons.inj same
  cases word
  exact ⟨tokens, runs, strings [_, _, _, _, _] _ _ [] tokens⟩

end Token

end CssRescale
