import CssRescale.Proofs.Rules.Grammar
import CssRescale.Rules.Config

/-!
Contract: the items of configuration texts are read as what they say.

Owns: reading values, names, entries and elements from each of their spellings, up to the
character that ends them.

Does not own: reading more than one of them.
-/

set_option autoImplicit false

namespace CssRescale

/-! ## Reading values -/

namespace Config

open Json (IsBlankText skipBlanks continuesNumber)

theorem ok_bind
    {α β : Type}
    (result : α)
    (next : α → Except ConfigError β) :
    (Except.ok result >>= next) = next result := rfl

theorem expect_run
    {before : Text}
    {mark : Char}
    (blanks : IsBlankText before)
    (notBlank : Json.isBlank mark = false)
    (rest : Text) :
    expect mark (before ++ mark :: rest) = .ok rest := by
  have starts : Text.headIs Json.isBlank (mark :: rest) = false := notBlank
  rw [expect, Json.skipBlanks_run blanks starts]
  simp

theorem startsNumber_append
    {written : Text}
    (starts : ∃ first tail, written = first :: tail ∧ Json.startsNumber first = true)
    (rest : Text) :
    startsNumber (written ++ rest) = true := by
  obtain ⟨first, tail, rfl, starts⟩ := starts
  exact starts

theorem isBlank_eq_false_of_startsNumber
    {c : Char}
    (starts : Json.startsNumber c = true) :
    Json.isBlank c = false ∧ c ≠ ']' := by
  constructor
  · rw [Bool.eq_false_iff]
    intro blank
    have isOne := (Json.isBlank_iff c).mp blank
    simp only [List.mem_cons, List.not_mem_nil, or_false] at isOne
    rcases isOne with rfl | rfl | rfl | rfl <;> cases starts
  · rintro rfl
    cases starts

section

variable
  {name : OptionName}
  {value : name.Value}

/-- A value starts with a character that is neither a blank nor a closing bracket. -/
theorem exists_begins
    {written : Text}
    (isWritten : name.IsWritten value written) :
    ∃ first rest, written = first :: rest ∧ Json.isBlank first = false ∧ first ≠ ']' := by
  cases isWritten with
  | size isNumber _ =>
      obtain ⟨first, rest, rfl, starts⟩ := isNumber.exists_starts
      exact ⟨_, _, rfl, isBlank_eq_false_of_startsNumber starts⟩
  | unit _ => exact ⟨_, _, rfl, rfl, nofun⟩
  | precision isInteger =>
      obtain ⟨first, rest, rfl, starts⟩ := isInteger.exists_starts
      exact ⟨_, _, rfl, isBlank_eq_false_of_startsNumber starts⟩

theorem skipBlanks_isWritten
    {before written : Text}
    (blanks : IsBlankText before)
    (isWritten : name.IsWritten value written)
    (rest : Text) :
    skipBlanks (before ++ (written ++ rest)) = written ++ rest := by
  obtain ⟨first, others, rfl, notBlank, -⟩ := exists_begins isWritten
  exact Json.skipBlanks_run blanks notBlank

variable
  {written rest : Text}
  (ends : Text.headIs continuesNumber rest = false)

include ends

theorem readSize_numberText
    {numeral : Json.Numeral}
    {size : Binary64}
    (isNumber : Json.NumberText numeral written)
    (isValue : numeral.value? = some size) :
    readSize (written ++ rest) = .ok (size, rest) := by
  have starts := startsNumber_append isNumber.exists_starts rest
  have read : Json.readNumber? (written ++ rest) = some (numeral, size, rest) := by
    rw [Json.readNumber?, Json.readNumeral?_numberText ends isNumber]
    simp [isValue]
  rw [readSize, if_pos starts, read]
  rfl

theorem readPrecision_integerText
    {digits : Int}
    (isInteger : Json.IntegerText digits written) :
    readPrecision (written ++ rest) = .ok (digits, rest) := by
  have starts := startsNumber_append isInteger.exists_starts rest
  obtain ⟨numeral, size, read, isDigits⟩ := isInteger.readNumber?_eq ends
  rw [readPrecision, if_pos starts, read, required, ok_bind]
  dsimp only
  rw [isDigits]
  rfl

theorem readOption_isWritten
    (isWritten : name.IsWritten value written)
    (overrides : Overrides) :
    readOption name overrides (written ++ rest) = .ok (overrides.give name value, rest) := by
  have unspaced : skipBlanks (written ++ rest) = written ++ rest :=
    skipBlanks_isWritten (List.forall_mem_nil _) isWritten rest
  cases isWritten with
  | size isNumber isValue =>
      rw [readOption, unspaced, readSize_numberText ends isNumber isValue]
      rfl
  | unit isString =>
      rw [readOption, unspaced, List.cons_append, List.append_assoc, List.singleton_append,
        readUnit, Json.readString?_bodyText isString]
      rfl
  | precision isInteger =>
      rw [readOption, unspaced, readPrecision_integerText ends isInteger]
      rfl

end

theorem readOption_skipBlanks
    (name : OptionName)
    (overrides : Overrides)
    (text : Text) :
    readOption name overrides (skipBlanks text) = readOption name overrides text := by
  cases name <;> rw [readOption, readOption, Json.skipBlanks_skipBlanks]

/-! ## Reading items -/

/-- The characters that end an item are no part of it. -/
structure EndsItem (mark : Char) : Prop where
  notBlank : Json.isBlank mark = false
  notNumber : continuesNumber mark = false

theorem endsItem_comma : EndsItem ',' := ⟨rfl, rfl⟩

theorem endsItem_brace : EndsItem '\x7d' := ⟨rfl, rfl⟩

theorem endsItem_bracket : EndsItem ']' := ⟨rfl, rfl⟩

section

variable
  {name : OptionName}
  {value : name.Value}
  {mark : Char}

/-- A value between blanks is read up to the blanks behind it. -/
theorem readOption_elementText
    {element : Text}
    (isElement : ElementText name value element)
    (ends : EndsItem mark)
    (overrides : Overrides)
    (rest : Text) :
    ∃ left, readOption name overrides (element ++ mark :: rest) =
        .ok (overrides.give name value, left) ∧
      skipBlanks left = mark :: rest := by
  obtain @⟨before, written, after, blanksBefore, isWritten, blanksAfter⟩ := isElement
  have notBlank : Text.headIs Json.isBlank (mark :: rest) = false := ends.notBlank
  have stops : Text.headIs continuesNumber (after ++ mark :: rest) = false := by
    cases after with
    | nil => exact ends.notNumber
    | cons first others =>
        have isBlank := blanksAfter first (List.mem_cons_self ..)
        simp only [List.mem_cons, List.not_mem_nil, or_false] at isBlank
        rcases isBlank with rfl | rfl | rfl | rfl <;> rfl
  refine ⟨after ++ mark :: rest, ?_, Json.skipBlanks_run blanksAfter notBlank⟩
  rw [← readOption_skipBlanks]
  simp only [List.append_assoc]
  rw [skipBlanks_isWritten blanksBefore isWritten]
  exact readOption_isWritten stops isWritten overrides

/-- An element does not look like the end of an array. -/
theorem skipBlanks_elementText_ne
    {element : Text}
    (isElement : ElementText name value element)
    (rest others : Text) :
    skipBlanks (element ++ rest) ≠ ']' :: others := by
  obtain ⟨blanksBefore, isWritten, -⟩ := isElement
  rw [List.append_assoc, List.append_assoc, skipBlanks_isWritten blanksBefore isWritten]
  obtain ⟨first, tail, rfl, -, notClosing⟩ := exists_begins isWritten
  exact fun same => notClosing (List.cons.inj same).1

/-- A name is read up to its quote. -/
theorem readString?_keyText
    {spelled key : Text}
    (isKey : KeyText spelled key)
    (rest : Text) :
    ∃ opened, expect '"' (key ++ rest) = .ok opened ∧
      Json.readString? opened = some (spelled, rest) := by
  obtain ⟨blanksBefore, isString⟩ := isKey
  refine ⟨_, ?_, Json.readString?_bodyText isString rest⟩
  simpa using expect_run blanksBefore rfl _

theorem readEntry_entryText
    {entry : Text}
    {overrides : Overrides}
    (isEntry : EntryText name value entry)
    (notGiven : overrides.value? name = none)
    (ends : EndsItem mark)
    (rest : Text) :
    ∃ left, readEntry overrides (entry ++ mark :: rest) = .ok (overrides.give name value, left) ∧
      skipBlanks left = mark :: rest := by
  obtain @⟨key, between, element, isKey, blanks, isElement⟩ := isEntry
  obtain ⟨opened, expected, read⟩ :=
    readString?_keyText isKey (between ++ ':' :: (element ++ mark :: rest))
  obtain ⟨left, readValue, unspaced⟩ := readOption_elementText isElement ends overrides rest
  have option : optionOf name.text overrides = .ok name := by
    rw [optionOf, OptionName.ofText?_text]
    simp [Overrides.gives_eq, notGiven]
  have colon := expect_run blanks (rfl : Json.isBlank ':' = false) (element ++ mark :: rest)
  refine ⟨left, ?_, unspaced⟩
  simp only [List.append_assoc, List.cons_append]
  rw [readEntry, expected, ok_bind, read, required, ok_bind]
  dsimp only
  rw [option, ok_bind, colon, ok_bind, readValue]

/-- A name that is none of an option, or that has been given, is refused whatever follows. -/
theorem readEntry_keyText_error
    {spelled key : Text}
    {overrides : Overrides}
    {error : ConfigError}
    (isKey : KeyText spelled key)
    (refused : optionOf spelled overrides = .error error)
    (behind : Text) :
    readEntry overrides (key ++ behind) = .error error := by
  obtain ⟨opened, expected, read⟩ := readString?_keyText isKey behind
  rw [readEntry, expected, ok_bind, read, required, ok_bind]
  dsimp only
  rw [refused]
  rfl

end

theorem readEntry_skipBlanks
    (overrides : Overrides)
    (text : Text) :
    readEntry overrides (skipBlanks text) = readEntry overrides text := by
  rw [readEntry, readEntry, expect, expect, Json.skipBlanks_skipBlanks]

theorem readEntries_skipBlanks
    (budget : Nat)
    (overrides : Overrides)
    (text : Text) :
    readEntries budget overrides (skipBlanks text) = readEntries budget overrides text := by
  cases budget with
  | zero => rw [readEntries, readEntries]
  | succ budget => rw [readEntries, readEntries, readEntry_skipBlanks]

end Config

end CssRescale
