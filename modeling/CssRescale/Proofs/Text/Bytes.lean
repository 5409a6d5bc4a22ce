import CssRescale.Text.Basic

/-!
Contract: byte positions between the parts of a text.

The length in bytes is additive, so the position between two parts is the length
of the first one, and cutting there gives back the parts.

Owns: cuts and slices of a text at the boundaries of its parts, and replacing the
text between two positions.
-/

set_option autoImplicit false

namespace CssRescale.Text

@[simp]
theorem byteLength_nil : byteLength [] = 0 := rfl

@[simp]
theorem byteLength_cons (first : Char) (rest : Text) :
    byteLength (first :: rest) = first.utf8Size + byteLength rest := rfl

@[simp]
theorem byteLength_append (left right : Text) :
    byteLength (left ++ right) = byteLength left + byteLength right := by
  induction left with
  | nil => simp
  | cons first rest inductionHypothesis =>
      simp only [List.cons_append, byteLength_cons, inductionHypothesis]
      omega

theorem byteLength_eq_zero_iff (text : Text) : byteLength text = 0 ↔ text = [] := by
  cases text with
  | nil => exact iff_of_true rfl rfl
  | cons first rest =>
      have size := first.utf8Size_pos
      refine iff_of_false ?_ nofun
      rw [byteLength_cons]
      omega

/-! ## Cuts -/

@[simp]
theorem splitAtByte?_zero (text : Text) : splitAtByte? text 0 = some ([], text) := by
  cases text <;> rfl

/-- A cut at the end of a part gives the parts. -/
@[simp]
theorem splitAtByte?_append (left right : Text) :
    splitAtByte? (left ++ right) (byteLength left) = some (left, right) := by
  induction left with
  | nil => exact splitAtByte?_zero right
  | cons first rest inductionHypothesis =>
      have size := first.utf8Size_pos
      obtain ⟨count, total⟩ : ∃ count, byteLength (first :: rest) = count + 1 :=
        ⟨first.utf8Size + byteLength rest - 1, by simp only [byteLength_cons]; omega⟩
      have fits : first.utf8Size ≤ count + 1 := by
        simp only [byteLength_cons] at total
        omega
      have remaining : count + 1 - first.utf8Size = byteLength rest := by
        simp only [byteLength_cons] at total
        omega
      rw [total, List.cons_append, splitAtByte?, if_pos fits, remaining, inductionHypothesis]
      rfl

/-- Texts that start with as many bytes of one text are the same. -/
theorem append_inj_of_byteLength
    {left leftRest right rightRest : Text}
    (same : left ++ leftRest = right ++ rightRest)
    (length : byteLength left = byteLength right) :
    left = right ∧ leftRest = rightRest := by
  have cut := splitAtByte?_append left leftRest
  rw [same, length, splitAtByte?_append] at cut
  cases cut
  exact ⟨rfl, rfl⟩

/-- The slice between the ends of two parts is the part between them. -/
theorem slice?_append (before middle after : Text) :
    slice? (before ++ (middle ++ after)) (byteLength before) (byteLength (before ++ middle)) =
      some middle := by
  have inOrder : ¬byteLength (before ++ middle) < byteLength before := by
    simp only [byteLength_append]
    omega
  have size : byteLength (before ++ middle) - byteLength before = byteLength middle := by
    simp only [byteLength_append]
    omega
  rw [slice?, if_neg inOrder, size]
  simp

theorem slice?_end (before after : Text) :
    slice? (before ++ after) (byteLength before) (byteLength (before ++ after)) = some after := by
  have whole := slice?_append before after []
  rwa [List.append_nil] at whole

/-- Only the ends of parts are cut at. -/
theorem append_of_splitAtByte?
    {text taken left : Text}
    {count : Nat}
    (cut : splitAtByte? text count = some (taken, left)) :
    text = taken ++ left ∧ byteLength taken = count := by
  fun_induction splitAtByte? text count generalizing taken with
  | case1 rest =>
      obtain ⟨rfl, rfl⟩ := Prod.mk.inj (Option.some.inj cut)
      exact ⟨rfl, rfl⟩
  | case2 count => exact absurd cut nofun
  | case3 first rest count fits inductionHypothesis =>
      obtain ⟨⟨after, last⟩, cutRest, same⟩ := Option.map_eq_some_iff.mp cut
      obtain ⟨rfl, rfl⟩ := Prod.mk.inj same
      obtain ⟨rfl, size⟩ := inductionHypothesis cutRest
      exact ⟨rfl, by rw [byteLength_cons, size]; omega⟩
  | case4 first rest count tooLong => exact absurd cut nofun

/-- A slice is the part between two others. -/
theorem exists_of_slice?
    {text middle : Text}
    {start stop : Nat}
    (slice : slice? text start stop = some middle) :
    ∃ before after, text = before ++ (middle ++ after) ∧
      byteLength before = start ∧ byteLength (before ++ middle) = stop := by
  by_cases inOrder : stop < start
  · rw [slice?, if_pos inOrder] at slice
    exact absurd slice nofun
  · rw [slice?, if_neg inOrder] at slice
    obtain ⟨⟨before, rest⟩, first, second⟩ := Option.bind_eq_some_iff.mp slice
    obtain ⟨⟨taken, after⟩, cut, same⟩ := Option.bind_eq_some_iff.mp second
    cases Option.some.inj same
    obtain ⟨rfl, startSize⟩ := append_of_splitAtByte? first
    obtain ⟨rfl, size⟩ := append_of_splitAtByte? cut
    exact ⟨before, after, rfl, startSize, by rw [byteLength_append]; omega⟩

/-- A slice of a slice is one of the whole text. -/
theorem slice?_slice?
    {text value part : Text}
    {start stop first last : Nat}
    (outer : slice? text start stop = some value)
    (inner : slice? value first last = some part) :
    slice? text (start + first) (start + last) = some part := by
  obtain ⟨before, after, rfl, rfl, -⟩ := exists_of_slice? outer
  obtain ⟨front, back, rfl, rfl, rfl⟩ := exists_of_slice? inner
  have parts := slice?_append (before ++ front) part (back ++ after)
  simp only [List.append_assoc] at parts ⊢
  simp only [byteLength_append] at parts ⊢
  exact parts

/-! ## Replacing -/

/-- The text with another one between two byte positions. -/
def replaceRange (text : Text) (start stop : Nat) (replacement : Text) : Text :=
  ((text.splitAtByte? start).map Prod.fst).getD [] ++ replacement
    ++ ((text.splitAtByte? stop).map Prod.snd).getD []

/-- What stands before and after the positions is kept. -/
theorem replaceRange_append (before middle after replacement : Text) :
    replaceRange (before ++ (middle ++ after)) (byteLength before) (byteLength (before ++ middle))
      replacement = before ++ (replacement ++ after) := by
  have front : splitAtByte? (before ++ (middle ++ after)) (byteLength before) =
      some (before, middle ++ after) := splitAtByte?_append before (middle ++ after)
  have back : splitAtByte? (before ++ (middle ++ after)) (byteLength (before ++ middle)) =
      some (before ++ middle, after) := by
    rw [← List.append_assoc]
    exact splitAtByte?_append (before ++ middle) after
  rw [replaceRange, front, back]
  simp

end CssRescale.Text
