import CssRescale.Proofs.Decimal.Numeral
import CssRescale.Proofs.Token.Kinds

/-!
Contract: what holds of every scan.

Owns:
- one step of a scan by its two cases, and a run of steps from what each does;
- the texts of the tokens, one after another, are the scanned text;
- the literal of every number token is a numeral.
-/

set_option autoImplicit false

namespace CssRescale.Token

/-! ## One step -/

/-- A step takes the body of a URL where one is expected, and otherwise the
token whose rule applies. -/
theorem next?_cases
    {state : UrlState}
    {source left : Text}
    {token : Token}
    (reading : next? state source = some (token, left)) :
    (∃ body, token = word body ∧ expectedBody? state source = some (body, left)) ∨
      ∃ first rest, source = first :: rest ∧ expectedBody? state source = none ∧
        Starts first rest (token, left) := by
  cases source with
  | nil => simp [next?] at reading
  | cons first rest =>
      simp only [next?] at reading
      split at reading
      next body remaining expected =>
        simp only [Option.some.injEq, Prod.mk.injEq] at reading
        obtain ⟨rfl, rfl⟩ := reading
        exact Or.inl ⟨body, rfl, expected⟩
      next unexpected =>
        simp only [Option.some.injEq] at reading
        exact Or.inr ⟨first, rest, rfl, unexpected, reading ▸ starts_nextOf first rest⟩

/-- A token that is no word is read where it starts. -/
theorem exists_starts_of_next?
    {state : UrlState}
    {source left : Text}
    {token : Token}
    (reading : next? state source = some (token, left))
    (noWord : token.kind ≠ .word) :
    ∃ first rest, source = first :: rest ∧ Starts first rest (token, left) := by
  rcases next?_cases reading with ⟨body, rfl, -⟩ | ⟨first, rest, shape, -, starts⟩
  · exact absurd rfl noWord
  · exact ⟨first, rest, shape, starts⟩

theorem next?_of_expected
    {state : UrlState}
    {source body left : Text}
    (expected : expectedBody? state source = some (body, left)) :
    next? state source = some (word body, left) := by
  cases source with
  | nil => simp [expectedBody?, takeUrlBody?] at expected
  | cons first rest => simp only [next?, expected]

theorem next?_of_starts
    {state : UrlState}
    {first : Char}
    {rest left : Text}
    {token : Token}
    (unexpected : expectedBody? state (first :: rest) = none)
    (starts : Starts first rest (token, left)) :
    next? state (first :: rest) = some (token, left) := by
  simp only [next?, unexpected, starts.nextOf_eq]

/-! ## All steps -/

@[simp]
theorem scanFrom_nil (state : UrlState) : scanFrom state [] = [] := by
  rw [scanFrom]
  rfl

theorem scanFrom_of_next?
    {state : UrlState}
    {source left : Text}
    {token : Token}
    (reading : next? state source = some (token, left)) :
    scanFrom state source = token :: scanFrom (state.after token left) left := by
  rw [scanFrom]
  split
  next none => rw [reading] at none; cases none
  next token' left' same =>
    rw [reading] at same
    cases same
    rfl

theorem exists_next? {source : Text} (state : UrlState) (nonempty : source ≠ []) :
    ∃ token left, next? state source = some (token, left) := by
  cases source with
  | nil => exact absurd rfl nonempty
  | cons first rest =>
      simp only [next?]
      split
      next body left _ => exact ⟨word body, left, rfl⟩
      next => exact ⟨(nextOf first rest).1, (nextOf first rest).2, rfl⟩

theorem concat_scanFrom (state : UrlState) (source : Text) :
    concat (scanFrom state source) = source := by
  fun_induction scanFrom state source with
  | case1 state source ended =>
      by_cases nonempty : source = []
      · rw [nonempty]
        rfl
      · obtain ⟨token, left, reading⟩ := exists_next? state nonempty
        rw [reading] at ended
        cases ended
  | case2 state source token left reading inductionHypothesis =>
      show token.text ++ concat (scanFrom (state.after token left) left) = source
      rw [inductionHypothesis, next?_append reading]

theorem concat_scan (source : Text) : concat (scan source) = source :=
  concat_scanFrom .outside source

/-- What holds of every token that a step reads holds of every token of a run. -/
theorem forall_mem_scanFrom
    {holds : Token → Prop}
    (step : ∀ {state source token left}, next? state source = some (token, left) → holds token)
    (state : UrlState)
    (source : Text) :
    ∀ token ∈ scanFrom state source, holds token := by
  fun_induction scanFrom state source with
  | case1 => simp
  | case2 state source token left reading inductionHypothesis =>
      intro other member
      rcases List.mem_cons.mp member with rfl | member
      · exact step reading
      · exact inductionHypothesis other member

/-! ## Numbers -/

theorem startsNumber_of_next?
    {state : UrlState}
    {source literal unit left : Text}
    (reading : next? state source = some (number literal unit, left)) :
    startsNumber source = true ∧ readNumber source = (number literal unit, left) := by
  obtain ⟨first, rest, rfl, starts⟩ := exists_starts_of_next? reading nofun
  exact starts.of_number rfl

/-- Where no body of a URL is expected, a number is read exactly where one starts. -/
theorem isNumber_of_next?
    {state : UrlState}
    {source left : Text}
    {token : Token}
    (closed : state ≠ .opened)
    (reading : next? state source = some (token, left)) :
    token.isNumber = startsNumber source := by
  rcases next?_cases reading with ⟨body, rfl, expected⟩ | ⟨first, rest, rfl, _, starts⟩
  · simp [expectedBody?, closed] at expected
  · exact starts.isNumber_eq

/-- If the token is a number, its literal is the text of a numeral. -/
def ReadsNumeral (token : Token) : Prop :=
  ∀ literal unit : Text, token = number literal unit → ∃ numeral : Numeral, literal = numeral.text

theorem readsNumeral_of_next?
    {state : UrlState}
    {source left : Text}
    {token : Token}
    (reading : next? state source = some (token, left)) :
    token.ReadsNumeral := by
  rintro literal unit rfl
  obtain ⟨number, read⟩ := startsNumber_of_next? reading
  obtain ⟨numeral, taken, _⟩ := takeLiteral_numeral number
  simp only [readNumber, Prod.mk.injEq, Token.number.injEq] at read
  exact ⟨numeral, by rw [← read.1.1, taken]⟩

theorem readsNumeral_of_mem_scanFrom
    {state : UrlState}
    {source : Text} :
    ∀ token ∈ scanFrom state source, token.ReadsNumeral :=
  forall_mem_scanFrom readsNumeral_of_next? state source

theorem readsNumeral_of_mem_scan {source : Text} : ∀ token ∈ scan source, token.ReadsNumeral :=
  readsNumeral_of_mem_scanFrom

end CssRescale.Token
