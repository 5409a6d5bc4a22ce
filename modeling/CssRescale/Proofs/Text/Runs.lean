import CssRescale.Text.Basic

/-!
Contract: where runs of characters end, and that they end there again.

A reader that takes a run stops at the first text that cannot go on the run.
Read again before any other text that cannot go on it, the run is taken whole.

Owns: these two laws for runs of one class of characters, digits among them,
for signs, and for runs in which a backslash escapes the character after it.
-/

set_option autoImplicit false

namespace CssRescale.Text

theorem ne_of_isAlpha
    {letter other : Char}
    (isLetter : letter.isAlpha = true)
    (isOther : other.isAlpha = false) :
    letter ≠ other := by
  rintro rfl
  exact absurd (isLetter.symm.trans isOther) nofun

/-! ## Runs of one class -/

/-- Does the text start with a character that `holds`? -/
def headIs (holds : Char → Bool) : Text → Bool
  | [] => false
  | first :: _ => holds first

theorem startsWithDigit_eq (text : Text) : startsWithDigit text = headIs Char.isDigit text := by
  cases text <;> rfl

theorem headIs_append
    {text : Text}
    (holds : Char → Bool)
    (nonempty : text ≠ [])
    (rest : Text) :
    headIs holds (text ++ rest) = headIs holds text := by
  cases text with
  | nil => exact absurd rfl nonempty
  | cons first tail => rfl

theorem headIs_dropWhile (holds : Char → Bool) (text : Text) :
    headIs holds (text.dropWhile holds) = false := by
  induction text with
  | nil => rfl
  | cons first rest inductionHypothesis =>
      by_cases goesOn : holds first = true
      · simpa [goesOn] using inductionHypothesis
      · simp [goesOn, headIs]

theorem takeWhile_run
    {holds : Char → Bool}
    {run rest : Text}
    (inside : ∀ c ∈ run, holds c = true)
    (ends : headIs holds rest = false) :
    (run ++ rest).takeWhile holds = run ∧ (run ++ rest).dropWhile holds = rest := by
  induction run with
  | nil =>
      cases rest with
      | nil => exact ⟨rfl, rfl⟩
      | cons first rest =>
          have other : holds first = false := ends
          simp [other]
  | cons first tail inductionHypothesis =>
      have goesOn : holds first = true := inside first (by simp)
      have shorter := inductionHypothesis fun c member => inside c (by simp [member])
      simp [goesOn, shorter]

/-- What starts no text of a class starts none of a smaller class. -/
theorem headIs_eq_false_of_imp
    {holds wider : Char → Bool}
    {text : Text}
    (within : ∀ c, holds c = true → wider c = true)
    (ends : headIs wider text = false) :
    headIs holds text = false := by
  cases text with
  | nil => rfl
  | cons first rest =>
      have outside : wider first = false := ends
      show holds first = false
      rw [← Bool.not_eq_true]
      intro inside
      rw [within first inside] at outside
      cases outside

theorem headIs_append_of_ends
    {holds : Char → Bool}
    {following : Text}
    (ends : headIs holds following = false)
    (text : Text) :
    headIs holds (text ++ following) = headIs holds text := by
  cases text with
  | nil => exact ends
  | cons first rest => rfl

/-- A run in a text ends where it does, whatever stands behind the text that does not
go on the run. -/
theorem span_append_of_ends
    {holds : Char → Bool}
    {following : Text}
    (ends : headIs holds following = false)
    (text : Text) :
    (text ++ following).takeWhile holds = text.takeWhile holds ∧
      (text ++ following).dropWhile holds = text.dropWhile holds ++ following := by
  have ends : headIs holds (text.dropWhile holds ++ following) = false := by
    rw [headIs_append_of_ends ends, headIs_dropWhile]
  have run := takeWhile_run (List.all_eq_true.mp (@List.all_takeWhile _ holds text)) ends
  rwa [← List.append_assoc, List.takeWhile_append_dropWhile] at run

/-! ## Digits -/

def IsDigits (text : Text) : Prop := ∀ c ∈ text, c.isDigit = true

theorem IsDigits.append
    {left right : Text}
    (leftDigits : IsDigits left)
    (rightDigits : IsDigits right) :
    IsDigits (left ++ right) := by
  intro c member
  rcases List.mem_append.mp member with member | member
  · exact leftDigits c member
  · exact rightDigits c member

theorem isDigits_takeDigits (text : Text) : IsDigits (takeDigits text).1 := by
  have all : ((takeDigits text).1.all Char.isDigit) = true := List.all_takeWhile
  exact List.all_eq_true.mp all

theorem startsWithDigit_takeDigits (text : Text) :
    startsWithDigit (takeDigits text).2 = false := by
  rw [startsWithDigit_eq]
  exact headIs_dropWhile Char.isDigit text

theorem takeDigits_run
    {digits rest : Text}
    (allDigits : IsDigits digits)
    (ends : startsWithDigit rest = false) :
    takeDigits (digits ++ rest) = (digits, rest) := by
  rw [startsWithDigit_eq] at ends
  obtain ⟨taken, left⟩ := takeWhile_run allDigits ends
  rw [takeDigits, taken, left]

theorem startsWithDigit_append
    {digits : Text}
    (allDigits : IsDigits digits)
    (nonempty : digits ≠ [])
    (rest : Text) :
    startsWithDigit (digits ++ rest) = true := by
  cases digits with
  | nil => exact absurd rfl nonempty
  | cons first tail => exact allDigits first (by simp)

/-! ## Signs -/

def IsSignText (text : Text) : Prop := text = [] ∨ text = ['+'] ∨ text = ['-']

def startsWithSign : Text → Bool
  | [] => false
  | first :: _ => isSign first

theorem isSignText_takeSign (text : Text) : IsSignText (takeSign text).1 := by
  cases text with
  | nil => exact Or.inl rfl
  | cons first rest =>
      simp only [takeSign]
      split
      next sign =>
        simp only [isSign, Bool.or_eq_true, beq_iff_eq] at sign
        rcases sign with rfl | rfl
        · exact Or.inr (Or.inl rfl)
        · exact Or.inr (Or.inr rfl)
      next => exact Or.inl rfl

theorem takeSign_run
    {sign rest : Text}
    (valid : IsSignText sign)
    (ends : startsWithSign rest = false) :
    takeSign (sign ++ rest) = (sign, rest) := by
  rcases valid with rfl | rfl | rfl
  · cases rest with
    | nil => rfl
    | cons first rest =>
        have other : isSign first = false := ends
        simp [takeSign, other]
  · rfl
  · rfl

theorem startsWithSign_of_digit
    {text : Text}
    (digit : startsWithDigit text = true) :
    startsWithSign text = false := by
  cases text with
  | nil => rfl
  | cons first rest =>
      have isDigit : first.isDigit = true := digit
      cases signed : isSign first with
      | false => exact signed
      | true =>
          simp only [isSign, Bool.or_eq_true, beq_iff_eq] at signed
          rcases signed with rfl | rfl
          · exact absurd isDigit (by decide)
          · exact absurd isDigit (by decide)

/-! ## Digits and signs before a text that goes on neither -/

theorem startsWithDigit_append_of_ends
    {following : Text}
    (ends : headIs Char.isDigit following = false)
    (text : Text) :
    startsWithDigit (text ++ following) = startsWithDigit text := by
  rw [startsWithDigit_eq, startsWithDigit_eq]
  exact headIs_append_of_ends ends text

theorem takeDigits_append_of_ends
    {following : Text}
    (ends : headIs Char.isDigit following = false)
    (text : Text) :
    takeDigits (text ++ following) = ((takeDigits text).1, (takeDigits text).2 ++ following) := by
  obtain ⟨taken, left⟩ := span_append_of_ends ends text
  rw [takeDigits, taken, left]
  rfl

theorem takeSign_append_of_ends
    {following : Text}
    (ends : headIs isSign following = false)
    (text : Text) :
    takeSign (text ++ following) = ((takeSign text).1, (takeSign text).2 ++ following) := by
  cases text with
  | nil =>
      cases following with
      | nil => rfl
      | cons first rest =>
          rw [headIs] at ends
          simp [takeSign, ends]
  | cons first rest =>
      simp only [List.cons_append, takeSign]
      split <;> rfl

/-! ## Runs with escapes -/

/-- Does a run end before this text? An escaped pair goes on every run. -/
def endsRun (stops : Char → Bool) : Text → Bool
  | [] => true
  | '\\' :: _ :: _ => false
  | first :: _ => stops first

/-- Does the text end in a backslash that stands alone? -/
def endsInBackslash : Text → Bool
  | [] => false
  | ['\\'] => true
  | '\\' :: _ :: rest => endsInBackslash rest
  | _ :: rest => endsInBackslash rest

theorem takeEscaped_of_endsRun
    {stops : Char → Bool}
    {text : Text}
    (ends : endsRun stops text = true) :
    takeEscaped stops text = ([], text) := by
  fun_cases endsRun stops text with
  | case1 => rfl
  | case2 => simp [endsRun] at ends
  | case3 first rest unescaped =>
      simp only [endsRun] at ends
      rw [takeEscaped]
      · simp [ends]
      · exact unescaped

/-- Characters that neither stop a run nor escape another one are all taken. -/
theorem takeEscaped_plain
    {stops : Char → Bool}
    {run rest : Text}
    (inside : ∀ c ∈ run, stops c = false ∧ c ≠ '\\')
    (ends : endsRun stops rest = true) :
    takeEscaped stops (run ++ rest) = (run, rest) := by
  induction run with
  | nil => exact takeEscaped_of_endsRun ends
  | cons first tail inductionHypothesis =>
      obtain ⟨goesOn, ordinary⟩ := inside first List.mem_cons_self
      have others := inductionHypothesis fun c member =>
        inside c (List.mem_cons_of_mem first member)
      rw [List.cons_append, takeEscaped]
      · simp [goesOn, others]
      · exact fun _ _ backslash _ => ordinary backslash

theorem endsRun_takeEscaped (stops : Char → Bool) (text : Text) :
    endsRun stops (takeEscaped stops text).2 = true := by
  fun_induction takeEscaped stops text with
  | case1 => rfl
  | case2 escaped rest taken left taking inductionHypothesis =>
      simpa [taking] using inductionHypothesis
  | case3 first rest unescaped stop =>
      rw [endsRun]
      · exact stop
      · exact unescaped
  | case4 first rest _ _ taken left taking inductionHypothesis =>
      simpa [taking] using inductionHypothesis

/-- What was taken is taken whole when nothing follows it. -/
theorem takeEscaped_taken (stops : Char → Bool) (text : Text) :
    takeEscaped stops (takeEscaped stops text).1 = ((takeEscaped stops text).1, []) := by
  fun_induction takeEscaped stops text with
  | case1 => rfl
  | case2 escaped rest taken left taking inductionHypothesis =>
      rw [taking] at inductionHypothesis
      simp only [takeEscaped, inductionHypothesis]
  | case3 => rfl
  | case4 first rest unescaped goesOn taken left taking inductionHypothesis =>
      rw [taking] at inductionHypothesis
      have nonpair : ∀ escaped tail, first = '\\' → taken = escaped :: tail → False := by
        intro escaped tail backslash nonempty
        cases rest with
        | nil => simp [takeEscaped, nonempty] at taking
        | cons second others => exact unescaped second others backslash rfl
      rw [takeEscaped]
      · simp [goesOn, inductionHypothesis]
      · exact nonpair

/-- A run ends in a lone backslash only at the end of the text. -/
theorem takeEscaped_eq_nil_of_endsInBackslash
    {stops : Char → Bool}
    {text : Text}
    (lone : endsInBackslash (takeEscaped stops text).1 = true) :
    (takeEscaped stops text).2 = [] := by
  fun_induction takeEscaped stops text with
  | case1 => rfl
  | case2 escaped rest taken left taking inductionHypothesis =>
      rw [taking] at inductionHypothesis
      exact inductionHypothesis lone
  | case3 => simp [endsInBackslash] at lone
  | case4 first rest unescaped goesOn taken left taking inductionHypothesis =>
      rw [taking] at inductionHypothesis
      cases rest with
      | nil =>
          simp only [takeEscaped, Prod.mk.injEq] at taking
          exact taking.2.symm
      | cons second others =>
          have ordinary : first ≠ '\\' := by
            intro backslash
            exact unescaped second others backslash rfl
          apply inductionHypothesis
          rw [endsInBackslash] at lone
          · exact lone
          · intro backslash _
            exact ordinary backslash
          · intro _ _ backslash _
            exact ordinary backslash

/-- A run is taken whole before every text that does not go on it. -/
theorem takeEscaped_run
    {stops : Char → Bool}
    {raw left : Text}
    (run : takeEscaped stops raw = (raw, []))
    (ends : endsRun stops left = true)
    (apart : endsInBackslash raw = true → left = []) :
    takeEscaped stops (raw ++ left) = (raw, left) := by
  fun_induction takeEscaped stops raw with
  | case1 => exact takeEscaped_of_endsRun ends
  | case2 escaped rest taken remaining taking inductionHypothesis =>
      simp only [Prod.mk.injEq, List.cons.injEq, true_and] at run
      obtain ⟨rfl, rfl⟩ := run
      simp only [List.cons_append, takeEscaped, inductionHypothesis taking apart]
  | case3 => simp at run
  | case4 first rest unescaped goesOn taken remaining taking inductionHypothesis =>
      simp only [Prod.mk.injEq, List.cons.injEq, true_and] at run
      obtain ⟨rfl, rfl⟩ := run
      by_cases backslash : first = '\\'
      · cases taken with
        | nil =>
            rw [apart (by rw [backslash]; rfl)]
            simp [takeEscaped, goesOn]
        | cons second others => exact absurd rfl (unescaped second others backslash)
      · have shorter : takeEscaped stops (taken ++ left) = (taken, left) := by
          refine inductionHypothesis taking fun lone => apart ?_
          rw [endsInBackslash]
          · exact lone
          · intro same _
            exact backslash same
          · intro _ _ same _
            exact backslash same
        rw [List.cons_append, takeEscaped]
        · simp [goesOn, shorter]
        · intro _ _ same _
          exact backslash same

/-- A run that ends inside a text, or before the text behind it, is taken as far as it
goes. The text may not end in a backslash, for that would escape what is behind it. -/
theorem takeEscaped_append_of_ends
    {stops : Char → Bool}
    {text following : Text}
    (plain : text.getLast? ≠ some '\\')
    (ends : (takeEscaped stops text).2 = [] → endsRun stops following = true) :
    takeEscaped stops (text ++ following) =
      ((takeEscaped stops text).1, (takeEscaped stops text).2 ++ following) := by
  fun_induction takeEscaped stops text with
  | case1 => exact takeEscaped_of_endsRun (ends rfl)
  | case2 escaped rest taken left taking inductionHypothesis =>
      rw [taking] at inductionHypothesis
      have shorter : rest.getLast? ≠ some '\\' := by
        cases rest with
        | nil => simp
        | cons second others => simpa using plain
      simp only [List.cons_append, takeEscaped, inductionHypothesis shorter ends]
  | case3 first rest unescaped stop =>
      rw [List.cons_append, takeEscaped]
      · simp [stop]
      · intro escaped tail backslash shape
        cases rest with
        | nil => exact plain (by simp [backslash])
        | cons second others => exact unescaped second others backslash rfl
  | case4 first rest unescaped goesOn taken left taking inductionHypothesis =>
      rw [taking] at inductionHypothesis
      have ordinary : first ≠ '\\' := by
        intro backslash
        cases rest with
        | nil => exact plain (by simp [backslash])
        | cons second others => exact unescaped second others backslash rfl
      have shorter : rest.getLast? ≠ some '\\' := by
        cases rest with
        | nil => simp
        | cons second others => simpa using plain
      rw [List.cons_append, takeEscaped]
      · simp [goesOn, inductionHypothesis shorter ends]
      · exact fun _ _ backslash _ => ordinary backslash

end CssRescale.Text
