import CssRescale.Proofs.Sheet.Seam

/-!
Contract: texts without brackets other than nested parentheses keep to themselves.

A quiet text has no quotes, escapes, slashes and square or curly brackets, and its
parentheses are nested; a calm text has no semicolons either. The tokens of a quiet text
do not depend on what stands behind it, and they leave no bracket open. An unquoted URL
may take in parentheses that open, and the one that closes it; so of the parentheses that
are open, fewer may be known to the tokens than to the text, but never more.

Owns:
- quiet and calm texts, and what each reader takes from a quiet text;
- the tokens of a quiet text, before every text that stands apart;
- a calm text has no semicolon among its tokens.

Does not own: the components that these tokens are grouped into.
-/

set_option autoImplicit false

namespace CssRescale

namespace Text

/-! ## Quiet and calm texts -/

/-- The two brackets that may stand in a quiet text. -/
def isParenthesis (c : Char) : Bool := c == '(' || c == ')'

def isQuiet (c : Char) : Bool :=
  !(isQuote c || c == '\\' || c == '/' || c == '[' || c == ']' || c == '\x7b' || c == '\x7d')

def isCalm (c : Char) : Bool :=
  !(isQuote c || c == '\\' || c == '/' || c == ';' || c == '[' || c == ']' || c == '\x7b'
    || c == '\x7d')

/-- Does the text close the given number of parentheses, and all that it opens? -/
def closes : Nat → Text → Bool
  | depth, [] => depth == 0
  | depth, first :: rest =>
      if first = '(' then closes (depth + 1) rest
      else if first = ')' then 0 < depth && closes (depth - 1) rest
      else closes depth rest

/-- A quiet text that closes the given number of parentheses. -/
structure IsQuiet (depth : Nat) (text : Text) : Prop where
  quiet : ∀ c ∈ text, isQuiet c = true
  closes : closes depth text = true

/-- A calm text that closes the given number of parentheses. -/
structure IsCalm (depth : Nat) (text : Text) : Prop where
  calm : ∀ c ∈ text, isCalm c = true
  closes : closes depth text = true

theorem IsCalm.isQuiet {depth : Nat} {text : Text} (isCalm : IsCalm depth text) :
    IsQuiet depth text where
  quiet := by
    intro c member
    have calm : Text.isCalm c = true := isCalm.calm c member
    simp only [Text.isCalm, Bool.not_eq_true', Bool.or_eq_false_iff] at calm
    simp [Text.isQuiet, calm]
  closes := isCalm.closes

/-- A class that has neither parenthesis has no character that is one. -/
theorem isParenthesis_eq_false
    {holds : Char → Bool}
    {c : Char}
    (inside : holds c = true)
    (opening : holds '(' = false)
    (closing : holds ')' = false) :
    isParenthesis c = false := by
  cases parenthesis : isParenthesis c with
  | false => rfl
  | true =>
      simp only [isParenthesis, Bool.or_eq_true, beq_iff_eq] at parenthesis
      rcases parenthesis with rfl | rfl
      · exact absurd (inside.symm.trans opening) nofun
      · exact absurd (inside.symm.trans closing) nofun

theorem closes_append
    {raw : Text}
    (free : ∀ c ∈ raw, isParenthesis c = false)
    (depth : Nat)
    (left : Text) :
    closes depth (raw ++ left) = closes depth left := by
  induction raw with
  | nil => rfl
  | cons first rest inductionHypothesis =>
      have other := free first List.mem_cons_self
      simp only [isParenthesis, Bool.or_eq_false_iff, beq_eq_false_iff_ne] at other
      rw [List.cons_append, closes, if_neg other.1, if_neg other.2]
      exact inductionHypothesis fun c member => free c (List.mem_cons_of_mem first member)

/-- A parenthesis that is open is closed. Up to the first that closes, none is closed. -/
theorem exists_closing
    {depth : Nat}
    {text : Text}
    (nested : closes (depth + 1) text = true) :
    ∃ body left after,
      text = body ++ ')' :: left ∧ ')' ∉ body ∧ depth ≤ after ∧ closes after left = true := by
  induction text generalizing depth with
  | nil => cases nested
  | cons first rest inductionHypothesis =>
      rw [closes] at nested
      by_cases opening : first = '('
      · rw [if_pos opening] at nested
        obtain ⟨body, left, after, rfl, inside, deeper, closed⟩ := inductionHypothesis nested
        refine ⟨first :: body, left, after, rfl, ?_, Nat.le_of_succ_le deeper, closed⟩
        simp [opening, inside]
      rw [if_neg opening] at nested
      by_cases closing : first = ')'
      · rw [if_pos closing, Bool.and_eq_true] at nested
        exact ⟨[], rest, depth, by rw [closing]; rfl, List.not_mem_nil, Nat.le_refl depth, nested.2⟩
      · rw [if_neg closing] at nested
        obtain ⟨body, left, after, rfl, inside, deeper, closed⟩ := inductionHypothesis nested
        refine ⟨first :: body, left, after, rfl, ?_, deeper, closed⟩
        simp [Ne.symm closing, inside]

namespace IsQuiet

variable {depth : Nat} {text : Text}

theorem not_mem
    (isQuiet : IsQuiet depth text)
    {c : Char}
    (loud : Text.isQuiet c = false) :
    c ∉ text := by
  intro member
  rw [isQuiet.quiet c member] at loud
  cases loud

/-- What is left behind a part without parentheses is quiet. -/
theorem of_append
    {raw left : Text}
    (isQuiet : IsQuiet depth (raw ++ left))
    (free : ∀ c ∈ raw, isParenthesis c = false) :
    IsQuiet depth left where
  quiet := fun c member => isQuiet.quiet c (List.mem_append_right raw member)
  closes := by rw [← isQuiet.closes, closes_append free]

end IsQuiet

end Text

open Text (IsApart IsCalm IsQuiet isParenthesis)

/-- Is the kind neither a semicolon nor a bracket? -/
def SheetTokenKind.isPlain : SheetTokenKind → Bool
  | .semicolon => false
  | .opening _ => false
  | .closing _ => false
  | _ => true

def SheetTokenKind.isBracket : SheetTokenKind → Bool
  | .opening _ => true
  | .closing _ => true
  | _ => false

namespace SheetToken

open Sheet

/-! ## The tokens of quiet texts -/

/-- The number of open parentheses before a token and after it. -/
inductive Shifts : Nat → SheetToken → Nat → Prop where
  | opening {depth : Nat} {token : SheetToken}
      (opening : token.kind = .opening .round) :
      Shifts depth token (depth + 1)
  | closing {depth : Nat} {token : SheetToken}
      (closing : token.kind = .closing .round) :
      Shifts (depth + 1) token depth
  /-- Parentheses may be open in the token and closed after it. -/
  | plain {depth after : Nat} {token : SheetToken}
      (noBracket : token.kind.isBracket = false)
      (deeper : depth ≤ after) :
      Shifts depth token after

/-- The reader takes the same token from a text whatever stands behind it, and leaves
a quiet text. The depth is the one before the token. -/
def ReadsQuiet (read : Text → SheetToken × Text) (depth : Nat) (text : Text) : Prop :=
  ∃ token left after,
    (∀ following, IsApart following → read (text ++ following) = (token, left ++ following)) ∧
      Shifts depth token after ∧ IsQuiet after left

theorem ReadsQuiet.of_plain
    {read : Text → SheetToken × Text}
    {depth : Nat}
    {source text : Text}
    (isQuiet : IsQuiet depth source)
    (extended : ∀ following, IsApart following →
      read (text ++ following) = ((read text).1, (read text).2 ++ following))
    (whole : (read text).1.raw ++ (read text).2 = source)
    (noBracket : (read text).1.kind.isBracket = false)
    (free : ∀ c ∈ (read text).1.raw, isParenthesis c = false) :
    ReadsQuiet read depth text := by
  rw [← whole] at isQuiet
  exact ⟨_, _, depth, extended, .plain noBracket (Nat.le_refl depth), isQuiet.of_append free⟩

theorem ReadsQuiet.congr
    {read other : Text → SheetToken × Text}
    {depth : Nat}
    {source text : Text}
    (reads : ReadsQuiet read depth source)
    (same : ∀ following, IsApart following →
      other (text ++ following) = read (source ++ following)) :
    ReadsQuiet other depth text := by
  obtain ⟨token, left, after, taken, shifts, isQuiet⟩ := reads
  exact ⟨token, left, after, fun following apart => (same following apart).trans
    (taken following apart), shifts, isQuiet⟩

/-! ### Parts without parentheses -/

theorem free_takeName
    {text : Text}
    (plain : '\\' ∉ text) :
    ∀ c ∈ (takeName text).2.1, isParenthesis c = false := by
  induction text with
  | nil => simp [takeName]
  | cons first rest inductionHypothesis =>
      obtain ⟨unescaped, others⟩ := List.ne_and_not_mem_of_not_mem_cons plain
      by_cases name : isNameChar first = true
      · have free := Text.isParenthesis_eq_false name rfl rfl
        simpa [takeName, unescaped.symm, name, free] using inductionHypothesis others
      · simp [takeName, unescaped.symm, name]

theorem free_takeLiteral
    {text : Text}
    (number : Token.startsNumber text = true) :
    ∀ c ∈ (Token.takeLiteral text).1, isParenthesis c = false := by
  obtain ⟨numeral, taken, _⟩ := Token.takeLiteral_numeral number
  have none : numeral.text.any isParenthesis = false := by
    apply numeral.any_text_eq_false _ rfl rfl rfl
    · exact fun c mark => Text.isParenthesis_eq_false mark rfl rfl
    · exact fun c digit => Text.isParenthesis_eq_false digit rfl rfl
  rw [taken]
  intro c member
  simpa using List.any_eq_false.mp none c member

theorem free_takeWhile_isBlank (text : Text) :
    ∀ c ∈ text.takeWhile isBlank, isParenthesis c = false := by
  intro c member
  have blank : isBlank c = true := List.all_eq_true.mp (@List.all_takeWhile _ isBlank text) c member
  exact Text.isParenthesis_eq_false blank rfl rfl

/-! ### Each reader -/

/-- A name that no parenthesis follows is an identifier. -/
theorem readName_identifier
    {text : Text}
    (noCall : Text.headIs (· == '(') (takeName text).2.2 = false) :
    readName text =
      (⟨.identifier (takeName text).1, (takeName text).2.1⟩, (takeName text).2.2) := by
  cases left : (takeName text).2.2 with
  | nil => simp [readName, left]
  | cons first rest =>
      rw [left] at noCall
      have other : first ≠ '(' := by simpa [Text.headIs] using noCall
      simp [readName, left, other]

theorem readName_call
    {text rest : Text}
    (call : (takeName text).2.2 = '(' :: rest)
    (noUrl : Text.equalIgnoringCase (takeName text).1 ['u', 'r', 'l'] = false) :
    readName text = (⟨.opening .round, (takeName text).2.1 ++ ['(']⟩, rest) := by
  simp [readName, call, noUrl]

theorem readName_url
    {text rest body left : Text}
    (call : (takeName text).2.2 = '(' :: rest)
    (url : Text.equalIgnoringCase (takeName text).1 ['u', 'r', 'l'] = true)
    (taken : takeUrl? rest = some (body, left)) :
    readName text = (⟨.other, (takeName text).2.1 ++ '(' :: body⟩, left) := by
  simp [readName, call, url, taken]

section

variable
  {depth : Nat}
  {text : Text}

theorem readsQuiet_readNumber
    (isQuiet : IsQuiet depth text)
    (number : Token.startsNumber text = true) :
    ReadsQuiet readNumber depth text := by
  have plain : '\\' ∉ text := isQuiet.not_mem rfl
  have unitPlain : '\\' ∉ (Token.takeLiteral text).2 := by
    intro member
    rw [← Token.takeLiteral_append text] at plain
    exact plain (List.mem_append_right _ member)
  have literal := free_takeLiteral number
  have unit := free_takeName unitPlain
  apply ReadsQuiet.of_plain isQuiet
  · exact fun following apart => readNumber_append_apart apart plain
  · exact readNumber_append text
  · rw [kind_readNumber]
    rfl
  · intro c
    simp only [readNumber]
    split
    · rw [List.mem_append, List.mem_singleton]
      rintro (member | rfl)
      · exact literal c member
      · rfl
    split
    · rw [List.mem_append]
      rintro (member | member)
      · exact literal c member
      · exact unit c member
    · exact literal c

/-- A reader that takes a mark and perhaps a name after it. -/
theorem ReadsQuiet.of_name
    {mark : Char}
    {read : Text → SheetToken × Text}
    (isQuiet : IsQuiet depth (mark :: text))
    (free : isParenthesis mark = false)
    (extended : ∀ following, IsApart following →
      read (text ++ following) = ((read text).1, (read text).2 ++ following))
    (whole : (read text).1.raw ++ (read text).2 = mark :: text)
    (noBracket : (read text).1.kind.isBracket = false)
    (raw : (read text).1.raw = [mark] ∨ (read text).1.raw = mark :: (takeName text).2.1) :
    ReadsQuiet read depth text := by
  have unescaped : '\\' ∉ text := fun member =>
    isQuiet.not_mem (c := '\\') rfl (List.mem_cons_of_mem mark member)
  apply ReadsQuiet.of_plain isQuiet extended whole noBracket
  intro c member
  rcases raw with raw | raw
  · rw [raw, List.mem_singleton] at member
    rw [member]
    exact free
  · rw [raw] at member
    rcases List.mem_cons.mp member with rfl | member
    · exact free
    · exact free_takeName unescaped c member

theorem readsQuiet_readAt (isQuiet : IsQuiet depth ('@' :: text)) : ReadsQuiet readAt depth text := by
  have plain : '\\' ∉ text := fun member =>
    isQuiet.not_mem (c := '\\') rfl (List.mem_cons_of_mem '@' member)
  apply ReadsQuiet.of_name isQuiet rfl
  · exact fun following apart => readAt_append_apart apart plain
  · exact readAt_append text
  · unfold readAt
    split <;> rfl
  · unfold readAt
    split
    · exact Or.inr rfl
    · exact Or.inl rfl

theorem readsQuiet_readHash (isQuiet : IsQuiet depth ('#' :: text)) :
    ReadsQuiet readHash depth text := by
  have plain : '\\' ∉ text := fun member =>
    isQuiet.not_mem (c := '\\') rfl (List.mem_cons_of_mem '#' member)
  apply ReadsQuiet.of_name isQuiet rfl
  · exact fun following apart => readHash_append_apart apart plain
  · exact readHash_append text
  · unfold readHash
    split <;> rfl
  · unfold readHash
    split
    · exact Or.inr rfl
    · exact Or.inl rfl

/-! ### Names -/

theorem takeName_append_apart_of_call
    {rest following : Text}
    (isQuiet : IsQuiet depth text)
    (call : (takeName text).2.2 = '(' :: rest)
    (apart : IsApart following) :
    takeName (text ++ following) =
      ((takeName text).1, (takeName text).2.1, '(' :: (rest ++ following)) := by
  have plain : '\\' ∉ text := isQuiet.not_mem rfl
  rw [takeName_append_apart apart plain, call]
  rfl

/-- Behind the opening parenthesis of a call one more is to be closed. -/
theorem isQuiet_of_call
    {rest : Text}
    (isQuiet : IsQuiet depth text)
    (call : (takeName text).2.2 = '(' :: rest) :
    IsQuiet (depth + 1) rest := by
  have plain : '\\' ∉ text := isQuiet.not_mem rfl
  have whole := takeName_append text
  rw [← whole, call] at isQuiet
  have inside := isQuiet.of_append (free_takeName plain)
  exact ⟨fun c member => inside.quiet c (List.mem_cons_of_mem _ member), inside.closes⟩

/-- An unquoted URL ends with the first parenthesis that closes. -/
theorem readsQuiet_url
    {rest : Text}
    (isQuiet : IsQuiet depth text)
    (call : (takeName text).2.2 = '(' :: rest)
    (url : Text.equalIgnoringCase (takeName text).1 ['u', 'r', 'l'] = true) :
    ReadsQuiet readName depth text := by
  have inside := isQuiet_of_call isQuiet call
  have noEscape : '\\' ∉ rest := inside.not_mem rfl
  obtain ⟨body, left, after, rfl, closing, deeper, closed⟩ := Text.exists_closing inside.closes
  have stays : StaysInUrl body :=
    ⟨closing, fun escape => noEscape (List.mem_append_left _ escape)⟩
  have noQuote : ∀ c ∈ body, isQuote c = false := by
    intro c member
    have quiet := inside.quiet c (List.mem_append_left _ member)
    simp only [Text.isQuiet, Bool.not_eq_true', Bool.or_eq_false_iff] at quiet
    exact quiet.1.1.1.1.1.1
  refine ⟨⟨.other, (takeName text).2.1 ++ '(' :: (body ++ [')'])⟩, left, after, ?_,
    .plain rfl deeper, ?_, closed⟩
  · intro following apart
    have taken := takeUrl?_closed stays (left ++ following) noQuote
    have name := takeName_append_apart_of_call isQuiet call apart
    rw [List.append_assoc] at name
    rw [readName_url (by rw [name]; rfl) (by rw [name]; exact url) taken, name]
  · intro c member
    exact inside.quiet c (List.mem_append_right _ (List.mem_cons_of_mem _ member))

theorem readsQuiet_call
    {rest : Text}
    (isQuiet : IsQuiet depth text)
    (call : (takeName text).2.2 = '(' :: rest)
    (noUrl : Text.equalIgnoringCase (takeName text).1 ['u', 'r', 'l'] = false) :
    ReadsQuiet readName depth text := by
  refine ⟨⟨.opening .round, (takeName text).2.1 ++ ['(']⟩, rest, depth + 1, ?_, .opening rfl,
    isQuiet_of_call isQuiet call⟩
  intro following apart
  have name := takeName_append_apart_of_call isQuiet call apart
  rw [readName_call (by rw [name]) (by rw [name]; exact noUrl), name]

theorem readsQuiet_identifier
    (isQuiet : IsQuiet depth text)
    (noCall : Text.headIs (· == '(') (takeName text).2.2 = false) :
    ReadsQuiet readName depth text := by
  have plain : '\\' ∉ text := isQuiet.not_mem rfl
  have read := readName_identifier noCall
  apply ReadsQuiet.of_plain isQuiet
  · intro following apart
    have name := takeName_append_apart apart plain
    have ends : Text.headIs (· == '(') following = false := apart.headIs ⟨rfl, rfl, rfl, rfl⟩
    have noCallThere : Text.headIs (· == '(') (takeName (text ++ following)).2.2 = false := by
      rw [name, Text.headIs_append_of_ends ends]
      exact noCall
    rw [read, readName_identifier noCallThere, name]
  · exact readName_append text
  · rw [read]
    rfl
  · rw [read]
    exact free_takeName plain

theorem readsQuiet_readName (isQuiet : IsQuiet depth text) : ReadsQuiet readName depth text := by
  by_cases call : ∃ rest, (takeName text).2.2 = '(' :: rest
  · obtain ⟨rest, call⟩ := call
    cases url : Text.equalIgnoringCase (takeName text).1 ['u', 'r', 'l'] with
    | true => exact readsQuiet_url isQuiet call url
    | false => exact readsQuiet_call isQuiet call url
  · apply readsQuiet_identifier isQuiet
    cases left : (takeName text).2.2 with
    | nil => rfl
    | cons first rest =>
        rw [Text.headIs, beq_eq_false_iff_ne]
        rintro rfl
        exact call ⟨rest, left⟩

end

/-- A quiet character that is no parenthesis is no bracket. -/
theorem isBracket_kindOf
    {c : Char}
    (quiet : Text.isQuiet c = true)
    (free : isParenthesis c = false) :
    (kindOf c).isBracket = false := by
  simp only [Text.isQuiet, Bool.not_eq_true', Bool.or_eq_false_iff] at quiet
  simp only [isParenthesis, Bool.or_eq_false_iff] at free
  simp only [kindOf, quiet, free]
  split
  · rfl
  · split <;> rfl

theorem readsQuiet_single
    {depth : Nat}
    {first : Char}
    {rest : Text}
    (isQuiet : IsQuiet depth (first :: rest)) :
    ReadsQuiet (fun left => (⟨kindOf first, [first]⟩, left)) depth rest := by
  have quiet : ∀ c ∈ rest, Text.isQuiet c = true := fun c member =>
    isQuiet.quiet c (List.mem_cons_of_mem first member)
  by_cases opening : first = '('
  · subst opening
    exact ⟨_, rest, depth + 1, fun _ _ => rfl, .opening rfl, quiet, isQuiet.closes⟩
  by_cases closing : first = ')'
  · subst closing
    have nested : (decide (0 < depth) && Text.closes (depth - 1) rest) = true := isQuiet.closes
    rw [Bool.and_eq_true, decide_eq_true_eq] at nested
    obtain ⟨before, rfl⟩ := Nat.exists_eq_succ_of_ne_zero (Nat.ne_of_gt nested.1)
    exact ⟨_, rest, before, fun _ _ => rfl, .closing rfl, quiet, nested.2⟩
  · have free : isParenthesis first = false := by simp [isParenthesis, opening, closing]
    refine ReadsQuiet.of_plain isQuiet (fun _ _ => rfl) rfl ?_ ?_
    · exact isBracket_kindOf (isQuiet.quiet first List.mem_cons_self) free
    · simpa using free

/-- What is read at the start of a quiet text. -/
theorem readsQuiet_nextOf
    {depth : Nat}
    {first : Char}
    {rest : Text}
    (isQuiet : IsQuiet depth (first :: rest)) :
    ReadsQuiet (nextOf first) depth rest := by
  have plain : '\\' ∉ first :: rest := isQuiet.not_mem rfl
  have starts := starts_nextOf first rest
  generalize result : nextOf first rest = taken at starts
  cases starts with
  | blank blank =>
      apply ReadsQuiet.of_plain isQuiet
      · intro following apart
        have ends : Text.headIs isBlank following = false := apart.headIs ⟨rfl, rfl, rfl, rfl⟩
        obtain ⟨blanks, left⟩ := Text.span_append_of_ends ends rest
        rw [result, (Starts.blank blank).nextOf_eq, blanks, left]
      · exact nextOf_append first rest
      · rw [result]
        rfl
      · rw [result]
        intro c member
        rcases List.mem_cons.mp member with rfl | member
        · exact Text.isParenthesis_eq_false blank rfl rfl
        · exact free_takeWhile_isBlank rest c member
  | string quote =>
      have quiet := isQuiet.quiet first List.mem_cons_self
      simp [Text.isQuiet, quote] at quiet
  | number number =>
      apply (readsQuiet_readNumber isQuiet number).congr
      intro following apart
      have goesOn := (Token.startsNumber_append_of_ends apart.endsLiteral _).trans number
      exact (Starts.number goesOn).nextOf_eq
  | comment => exact absurd (isQuiet.quiet '/' List.mem_cons_self) nofun
  | openMarker =>
      apply ReadsQuiet.of_plain isQuiet (fun _ _ => rfl) rfl rfl
      show ∀ c ∈ ['<', '!', '-', '-'], isParenthesis c = false
      simp [isParenthesis]
  | closeMarker =>
      apply ReadsQuiet.of_plain isQuiet (fun _ _ => rfl) rfl rfl
      show ∀ c ∈ ['-', '-', '>'], isParenthesis c = false
      simp [isParenthesis]
  | atSign => exact readsQuiet_readAt isQuiet
  | hash => exact readsQuiet_readHash isQuiet
  | name ordinary name =>
      apply (readsQuiet_readName isQuiet).congr
      intro following apart
      have names := (startsName_append_apart apart plain).trans name
      exact (Starts.name (ordinary.append_apart apart) names).nextOf_eq
  | single ordinary noName =>
      apply (readsQuiet_single isQuiet).congr
      intro following apart
      have noNames := (startsName_append_apart apart plain).trans noName
      exact (Starts.single (ordinary.append_apart apart) noNames).nextOf_eq

/-! ## Runs of tokens -/

/-- Tokens that close the given number of parentheses, and all that they open. -/
inductive Nest : Nat → List SheetToken → Prop where
  | nil : Nest 0 []
  | cons {depth after : Nat} {token : SheetToken} {rest : List SheetToken}
      (shifts : Shifts depth token after)
      (nest : Nest after rest) :
      Nest depth (token :: rest)

/-- A quiet text is scanned by itself, whatever stands behind it, and its tokens nest. -/
theorem scan_quiet
    {depth : Nat}
    {text : Text}
    (isQuiet : IsQuiet depth text) :
    Nest depth (scan text) ∧
      ∀ following, IsApart following → scan (text ++ following) = scan text ++ scan following := by
  fun_induction scan text generalizing depth with
  | case1 =>
      have closed : depth = 0 := by simpa [Text.closes] using isQuiet.closes
      subst closed
      exact ⟨.nil, fun following _ => rfl⟩
  | case2 first rest inductionHypothesis =>
      obtain ⟨token, left, after, taken, shifts, others⟩ := readsQuiet_nextOf isQuiet
      have here : nextOf first rest = (token, left) := by
        have alone := taken [] Text.isApart_nil
        rwa [List.append_nil, List.append_nil] at alone
      rw [here] at inductionHypothesis ⊢
      obtain ⟨nest, apartness⟩ := inductionHypothesis others
      refine ⟨.cons shifts nest, fun following apart => ?_⟩
      rw [List.cons_append, scan, taken following apart, apartness following apart]
      rfl

/-- Every semicolon among the tokens is one of the text. -/
theorem kind_ne_semicolon_of_mem_scan
    {text : Text}
    (absent : ';' ∉ text) :
    ∀ token ∈ scan text, token.kind ≠ .semicolon := by
  intro token member semicolon
  have written : token.raw = [';'] :=
    (isMarked_of_mem_scan token member).mark ';' (by rw [semicolon]; rfl)
  apply absent
  rw [← concat_scan text]
  exact List.mem_flatMap.mpr ⟨token, member, by rw [written]; exact List.mem_singleton_self ';'⟩

end SheetToken

end CssRescale
