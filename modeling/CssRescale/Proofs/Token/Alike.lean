import CssRescale.Proofs.Token.Run

/-!
Contract: texts in the place of others.

What a reader sees of the text after its token is little: whether there is any,
its first character, and whether it starts with a fraction. A text resumes where
another one stood if it agrees with it in these, or if a number starting with a
digit stands where a number stood.

Owns: the relations `Alike` and `Resumes`, and the classes of characters that
cannot tell such texts apart.

Does not own: the readers.
-/

set_option autoImplicit false

namespace CssRescale.Token

open Text (headIs endsRun startsWithDigit)
open Numeral (startsFraction)

/-! ## Texts in the place of others -/

/-- Two texts that end at once, or that agree in their first character, in
whether it is the last, and in whether a fraction starts with it. -/
inductive Alike : Text → Text → Prop where
  | ended : Alike [] []
  | same {first : Char} {left rest : Text}
      (single : left = [] ↔ rest = [])
      (fraction : startsFraction (first :: left) = startsFraction (first :: rest)) :
      Alike (first :: left) (first :: rest)

/-- The second text stands where the first one stood: they are alike, or a digit
starts the second where a number started the first. -/
inductive Resumes (left rest : Text) : Prop where
  | alike (alike : Alike left rest)
  | digit (number : startsNumber left = true) (digit : startsWithDigit rest = true)

theorem Alike.eq_nil {rest : Text} (alike : Alike [] rest) : rest = [] := by
  cases alike
  rfl

theorem Alike.headIs_eq
    {left rest : Text}
    (alike : Alike left rest)
    (holds : Char → Bool) :
    headIs holds left = headIs holds rest := by
  cases alike <;> rfl

theorem Alike.startsFraction_eq
    {left rest : Text}
    (alike : Alike left rest) :
    startsFraction left = startsFraction rest := by
  cases alike with
  | ended => rfl
  | same single fraction => exact fraction

/-- Of an escape only its first character and that there is another one matter. -/
theorem Alike.endsRun_eq
    {left rest : Text}
    (alike : Alike left rest)
    (stops : Char → Bool) :
    endsRun stops left = endsRun stops rest := by
  cases alike with
  | ended => rfl
  | @same first left rest single fraction =>
      cases left with
      | nil => rw [single.mp rfl]
      | cons second left =>
          cases rest with
          | nil => exact absurd (single.mpr rfl) (by simp)
          | cons third rest => by_cases backslash : first = '\\' <;> simp [endsRun, backslash]

/-- A text that is nothing or starts with another character than a backslash ends a run or not
by that character. -/
theorem endsRun_eq_headIs
    {stops : Char → Bool}
    (plain : stops '\\' = false)
    (text : Text) :
    endsRun stops text = (text.isEmpty || headIs stops text) := by
  fun_cases endsRun stops text with
  | case1 => rfl
  | case2 second rest => simp [headIs, plain]
  | case3 first rest unescaped => simp [headIs]

/-- The first characters of numbers are in no class that matters here. -/
def AvoidsNumbers (holds : Char → Bool) : Prop :=
  ∀ c : Char, c.isDigit = true ∨ c = '.' ∨ isSign c = true → holds c = false

theorem headIs_of_startsNumber
    {holds : Char → Bool}
    {source : Text}
    (avoids : AvoidsNumbers holds)
    (number : startsNumber source = true) :
    headIs holds source = false := by
  cases source with
  | nil => rfl
  | cons first rest => exact avoids first (first_of_startsNumber number)

theorem startsNumber_of_startsWithDigit
    {source : Text}
    (digit : startsWithDigit source = true) :
    startsNumber source = true := by
  have unsigned : Text.takeSign source = ([], source) :=
    Text.takeSign_run (Or.inl rfl) (Text.startsWithSign_of_digit digit)
  rw [startsNumber_eq, unsigned, digit]
  rfl

theorem Resumes.eq_nil {rest : Text} (resumes : Resumes [] rest) : rest = [] := by
  cases resumes with
  | alike alike => exact alike.eq_nil
  | digit number => simp [startsNumber] at number

theorem Resumes.headIs_eq
    {holds : Char → Bool}
    {left rest : Text}
    (resumes : Resumes left rest)
    (avoids : AvoidsNumbers holds) :
    headIs holds left = headIs holds rest := by
  cases resumes with
  | alike alike => exact alike.headIs_eq holds
  | digit number digit =>
      rw [headIs_of_startsNumber avoids number,
        headIs_of_startsNumber avoids (startsNumber_of_startsWithDigit digit)]

theorem Resumes.endsRun
    {stops : Char → Bool}
    {left rest : Text}
    (resumes : Resumes left rest)
    (avoids : AvoidsNumbers stops)
    (plain : stops '\\' = false)
    (ends : endsRun stops left = true) :
    endsRun stops rest = true := by
  rw [endsRun_eq_headIs plain, Bool.or_eq_true] at ends ⊢
  rcases ends with ended | stop
  · rw [List.isEmpty_iff] at ended
    subst ended
    exact Or.inl (by rw [resumes.eq_nil]; rfl)
  · exact Or.inr (resumes.headIs_eq avoids ▸ stop)

/-- No digit starts a text that ends a run by a character that starts no number. -/
theorem AvoidsNumbers.startsWithDigit
    {stops : Char → Bool}
    {rest : Text}
    (avoids : AvoidsNumbers stops)
    (plain : stops '\\' = false)
    (ends : Text.endsRun stops rest = true) :
    startsWithDigit rest = false := by
  rw [endsRun_eq_headIs plain, Bool.or_eq_true, List.isEmpty_iff] at ends
  rcases ends with rfl | stop
  · rfl
  · cases digit : Text.startsWithDigit rest with
    | false => rfl
    | true =>
        rw [headIs_of_startsNumber avoids (startsNumber_of_startsWithDigit digit)] at stop
        cases stop

theorem avoidsNumbers_of_all
    {holds : Char → Bool}
    (digits : ∀ c : Char, c.isDigit = true → holds c = false)
    (others : (['.', '+', '-'].all fun c => !holds c) = true) :
    AvoidsNumbers holds := by
  simp only [List.all_cons, List.all_nil, Bool.and_true, Bool.and_eq_true, Bool.not_eq_true'] at others
  rintro c (digit | rfl | signed)
  · exact digits c digit
  · exact others.1
  · simp only [isSign, Bool.or_eq_true, beq_iff_eq] at signed
    rcases signed with rfl | rfl
    · exact others.2.1
    · exact others.2.2

theorem avoidsNumbers_isBlank : AvoidsNumbers isBlank :=
  avoidsNumbers_of_all (fun _ digit => (Plain.of_isDigit digit []).blank) rfl

theorem avoidsNumbers_eq {other : Char} (noDigit : other.isDigit = false)
    (others : (['.', '+', '-'].all fun c => !(c == other)) = true) :
    AvoidsNumbers (· == other) :=
  avoidsNumbers_of_all (fun _ digit => beq_false_of_ne (ne_of_isDigit digit noDigit)) others

theorem avoidsNumbers_endsWord : AvoidsNumbers endsWord := by
  apply avoidsNumbers_of_all _ rfl
  intro c digit
  have plain := Plain.of_isDigit digit []
  simp [endsWord, plain.blank, plain.quote, ne_of_isDigit digit]

end CssRescale.Token
