import Mathlib.Data.List.Perm.Subperm
import CssRescale.Proofs.Rules.Items

/-!
Contract: what a configuration text says.

An object gives values by name, in any order; an array gives the first values in the order
of the options. What has been read at any point is what is chosen, under the names that have
been read, so the order of the names makes no difference. A name that is none of an option,
or that has been read before, is refused before its value is read.

Owns:
- reading objects and arrays;
- the options that a configuration text gives, and when it is refused for a name.
-/

set_option autoImplicit false

namespace CssRescale

/-! ## Reading objects -/

namespace Config

open Json (IsBlankText skipBlanks)

/-- Behind an entry stands a comma and further entries, or the end of the object. -/
theorem readEntries_entryText
    {name : OptionName}
    {value : name.Value}
    {entry : Text}
    {overrides : Overrides}
    (isEntry : EntryText name value entry)
    (notGiven : overrides.value? name = none)
    (budget : Nat)
    (rest : Text) :
    readEntries (budget + 1) overrides (entry ++ ',' :: rest) =
        readEntries budget (overrides.give name value) rest ∧
      readEntries (budget + 1) overrides (entry ++ '\x7d' :: rest) =
        .ok (overrides.give name value, rest) := by
  obtain ⟨left, read, goesOn⟩ := readEntry_entryText isEntry notGiven endsItem_comma rest
  obtain ⟨leftToo, readToo, closes⟩ := readEntry_entryText isEntry notGiven endsItem_brace rest
  constructor
  · rw [readEntries, read, ok_bind]
    dsimp only
    rw [goesOn]
    rfl
  · rw [readEntries, readToo, ok_bind]
    dsimp only
    rw [closes]
    rfl

section

variable
  {chosen : Overrides}
  {names done : List OptionName}
  {entries : Text}

/-- What is to be read has not been read. -/
theorem value?_only_of_nodup
    {name : OptionName}
    {others : List OptionName}
    (apart : (done ++ name :: others).Nodup) :
    (chosen.only done).value? name = none := by
  rw [Overrides.value?_only, if_neg]
  exact fun member => (List.nodup_append.mp apart).2.2 name member name (List.mem_cons_self ..) rfl

/-- Entries of names that have not been read are read, and what has been read then is what is
chosen under these names too. -/
theorem readEntries_itemsText
    (areEntries : ItemsText EntryText chosen names entries)
    (apart : (done ++ names).Nodup)
    (budget : Nat)
    (rest : Text) :
    readEntries (names.length + budget) (chosen.only done) (entries ++ ',' :: rest) =
        readEntries budget (chosen.only (done ++ names)) rest ∧
      readEntries (names.length + budget) (chosen.only done) (entries ++ '\x7d' :: rest) =
        .ok (chosen.only (done ++ names), rest) := by
  -- Each entry adds its name to those that have been read, and takes one from the bound.
  induction areEntries generalizing done with
  | @last name value entry isChosen isEntry =>
      rw [← Overrides.give_only isChosen, List.length_singleton, Nat.add_comm]
      exact readEntries_entryText isEntry (value?_only_of_nodup apart) budget rest
  | @more name value entry entries names isChosen isEntry _ inductionHypothesis =>
      have notGiven : (chosen.only done).value? name = none := value?_only_of_nodup apart
      have step := readEntries_entryText isEntry notGiven (names.length + budget)
      have regrouped : done ++ name :: names = done ++ [name] ++ names := List.append_cons ..
      rw [regrouped] at apart ⊢
      obtain ⟨goesOn, closes⟩ := inductionHypothesis apart
      rw [← Overrides.give_only isChosen] at goesOn closes
      rw [List.length_cons, Nat.succ_add]
      constructor
      · rw [List.append_assoc]
        exact (step _).1.trans goesOn
      · rw [List.append_assoc]
        exact (step _).1.trans closes

/-- There are not enough options to use up the bound without reading one twice. -/
theorem exists_spare (nodup : names.Nodup) :
    ∃ spare, OptionName.all.length + 1 = names.length + (spare + 1) := by
  have bounded : names.length ≤ OptionName.all.length :=
    (List.subperm_of_subset nodup fun name _ => name.mem_all).length_le
  exact ⟨OptionName.all.length - names.length, by omega⟩

/-- An entry starts with a quote. -/
theorem skipBlanks_keyText
    {spelled key : Text}
    (isKey : KeyText spelled key)
    (rest : Text) :
    ∃ others, skipBlanks (key ++ rest) = '"' :: others := by
  obtain ⟨blanksBefore, -⟩ := isKey
  rw [List.append_assoc]
  exact ⟨_, Json.skipBlanks_run blanksBefore rfl⟩

theorem skipBlanks_entries
    (areEntries : ItemsText EntryText chosen names entries)
    (rest : Text) :
    ∃ others, skipBlanks (entries ++ rest) = '"' :: others := by
  cases areEntries with
  | last _ isEntry =>
      obtain ⟨isKey, -, -⟩ := isEntry
      rw [List.append_assoc]
      exact skipBlanks_keyText isKey _
  | more _ isEntry _ =>
      obtain ⟨isKey, -, -⟩ := isEntry
      rw [List.append_assoc, List.append_assoc]
      exact skipBlanks_keyText isKey _

/-- What starts with a quote is read as entries. -/
theorem readObject_eq
    {text others : Text}
    (starts : skipBlanks text = '"' :: others) :
    readObject text = readEntries (OptionName.all.length + 1) Overrides.empty text := by
  rw [← readEntries_skipBlanks, readObject, starts]
  rfl

theorem readObject_itemsText
    (areEntries : ItemsText EntryText chosen names entries)
    (nodup : names.Nodup)
    (rest : Text) :
    readObject (entries ++ '\x7d' :: rest) = .ok (chosen.only names, rest) := by
  obtain ⟨others, starts⟩ := skipBlanks_entries areEntries ('\x7d' :: rest)
  obtain ⟨spare, total⟩ := exists_spare nodup
  rw [readObject_eq starts, ← Overrides.only_nil chosen, total]
  rw [← List.nil_append names] at nodup
  exact (readEntries_itemsText areEntries nodup (spare + 1) rest).2

/-- A name that is none of an option, or that has been read, is refused. -/
theorem readObject_itemsText_error
    {spelled key : Text}
    {error : ConfigError}
    (areEntries : ItemsText EntryText chosen names entries)
    (nodup : names.Nodup)
    (isKey : KeyText spelled key)
    (refused : optionOf spelled (chosen.only names) = .error error)
    (behind : Text) :
    readObject (entries ++ ',' :: (key ++ behind)) = .error error := by
  obtain ⟨others, starts⟩ := skipBlanks_entries areEntries (',' :: (key ++ behind))
  obtain ⟨spare, total⟩ := exists_spare nodup
  rw [← List.nil_append names] at nodup
  have read := (readEntries_itemsText areEntries nodup (spare + 1) (key ++ behind)).1
  rw [readObject_eq starts, ← Overrides.only_nil chosen, total, read, readEntries, List.nil_append,
    readEntry_keyText_error isKey refused]
  rfl

theorem readObject_keyText_error
    {spelled key : Text}
    {error : ConfigError}
    (isKey : KeyText spelled key)
    (refused : optionOf spelled Overrides.empty = .error error)
    (behind : Text) :
    readObject (key ++ behind) = .error error := by
  obtain ⟨others, starts⟩ := skipBlanks_keyText isKey behind
  rw [readObject_eq starts, readEntries, readEntry_keyText_error isKey refused]
  rfl

/-! ## Reading arrays -/

theorem readElements_closing
    {left rest : Text}
    (closes : skipBlanks left = ']' :: rest)
    (names : List OptionName)
    (overrides : Overrides) :
    readElements names overrides left = .ok (overrides, rest) := by
  unfold readElements
  rw [closes]
  cases names <;> rfl

theorem readElements_comma
    {left rest : Text}
    (goesOn : skipBlanks left = ',' :: rest)
    (notClosed : ∀ others, skipBlanks rest ≠ ']' :: others)
    (name : OptionName)
    (names : List OptionName)
    (overrides : Overrides) :
    readElements (name :: names) overrides left =
      readOption name overrides rest >>= fun (extended, left) =>
        readElements names extended left := by
  rw [← readOption_skipBlanks, readElements.eq_def (name :: names)]
  dsimp only
  rw [goesOn]
  split
  next others same => exact absurd (List.cons.inj same).1 (by decide)
  next option others after sameNames sameText =>
    obtain ⟨rfl, rfl⟩ := List.cons.inj sameNames
    obtain ⟨-, rfl⟩ := List.cons.inj sameText
    split
    next others closes => exact absurd closes (notClosed others)
    next => rfl
  next neither => exact absurd rfl (neither name names rest rfl)

theorem skipBlanks_elements_ne
    {elements : Text}
    (areElements : ItemsText ElementText chosen names elements)
    (rest others : Text) :
    skipBlanks (elements ++ rest) ≠ ']' :: others := by
  cases areElements with
  | last _ isElement => exact skipBlanks_elementText_ne isElement _ _
  | more _ isElement _ =>
      rw [List.append_assoc]
      exact skipBlanks_elementText_ne isElement _ _

/-- Elements are read as the values of the options in their order, as many as there are. -/
theorem readElements_itemsText
    {elements : Text}
    (areElements : ItemsText ElementText chosen names elements) :
    ∃ name others, names = name :: others ∧ ∀ done spare rest,
      (readOption name (chosen.only done) (elements ++ ']' :: rest) >>= fun (extended, left) =>
        readElements (others ++ spare) extended left) =
      .ok (chosen.only (done ++ names), rest) := by
  -- Only elements behind a comma are read by the recursion, so the first one stands before it.
  induction areElements with
  | @last name value element isChosen isElement =>
      refine ⟨name, [], rfl, fun done spare rest => ?_⟩
      obtain ⟨left, read, closes⟩ := readOption_elementText isElement endsItem_bracket
        (chosen.only done) rest
      rw [read, ok_bind, Overrides.give_only isChosen]
      exact readElements_closing closes _ _
  | @more name value element elements names isChosen isElement areElements inductionHypothesis =>
      obtain ⟨next, others, rfl, further⟩ := inductionHypothesis
      refine ⟨name, next :: others, rfl, fun done spare rest => ?_⟩
      obtain ⟨left, read, goesOn⟩ := readOption_elementText isElement endsItem_comma
        (chosen.only done) (elements ++ ']' :: rest)
      have regrouped : done ++ name :: next :: others = done ++ [name] ++ next :: others :=
        List.append_cons ..
      rw [List.append_assoc, List.cons_append, read, ok_bind, Overrides.give_only isChosen,
        regrouped, ← further (done ++ [name]) spare rest]
      exact readElements_comma goesOn (skipBlanks_elements_ne areElements _) _ _ _

theorem readArray_itemsText
    {elements : Text}
    {spare : List OptionName}
    (areElements : ItemsText ElementText chosen names elements)
    (start : OptionName.all = names ++ spare)
    (rest : Text) :
    readArray (elements ++ ']' :: rest) = .ok (chosen.only names, rest) := by
  obtain ⟨name, others, rfl, read⟩ := readElements_itemsText areElements
  have notClosed := skipBlanks_elements_ne areElements (']' :: rest)
  have done := read [] spare rest
  rw [← readOption_skipBlanks, Overrides.only_nil, List.nil_append] at done
  rw [readArray, start, List.cons_append]
  split
  next others closes => exact absurd closes (notClosed others)
  next same _ =>
    obtain ⟨rfl, rfl⟩ := List.cons.inj same
    exact done
  next same _ => cases same

end

/-! ## Reading whole texts -/

section

variable
  {before rest after : Text}
  {overrides : Overrides}
  (blanksBefore : IsBlankText before)

include blanksBefore

theorem readOverrides_brace (rest : Text) :
    readOverrides (before ++ '\x7b' :: rest) = readObject rest := by
  rw [readOverrides, Json.skipBlanks_run blanksBefore rfl]
  rfl

theorem readOverrides_bracket (rest : Text) :
    readOverrides (before ++ '[' :: rest) = readArray rest := by
  rw [readOverrides, Json.skipBlanks_run blanksBefore rfl]
  rfl

end

theorem ofConfig_of_readOverrides
    {text after : Text}
    {overrides : Overrides}
    (read : readOverrides text = .ok (overrides, after))
    (blanksAfter : IsBlankText after) :
    Overrides.ofConfig text = .ok overrides := by
  rw [Overrides.ofConfig, read, ok_bind]
  dsimp only
  rw [Json.skipBlanks_eq_nil blanksAfter]
  rfl

section

variable
  {chosen : Overrides}
  {names : List OptionName}
  {text : Text}

/-- An object gives what is chosen under its names. -/
theorem ofConfig_objectText
    (isObject : ObjectText chosen names text)
    (nodup : names.Nodup) :
    Overrides.ofConfig text = .ok (chosen.only names) := by
  cases isObject with
  | empty blanksBefore blanksInside blanksAfter =>
      refine ofConfig_of_readOverrides ?_ blanksAfter
      rw [readOverrides_brace blanksBefore, readObject, Json.skipBlanks_run blanksInside rfl,
        Overrides.only_nil]
      rfl
  | items blanksBefore areEntries blanksAfter =>
      refine ofConfig_of_readOverrides ?_ blanksAfter
      rw [readOverrides_brace blanksBefore]
      exact readObject_itemsText areEntries nodup _

/-- An array gives what is chosen under the first names. -/
theorem ofConfig_arrayText
    {spare : List OptionName}
    (isArray : ArrayText chosen names text)
    (start : OptionName.all = names ++ spare) :
    Overrides.ofConfig text = .ok (chosen.only names) := by
  cases isArray with
  | empty blanksBefore blanksInside blanksAfter =>
      refine ofConfig_of_readOverrides ?_ blanksAfter
      rw [readOverrides_bracket blanksBefore, readArray, Json.skipBlanks_run blanksInside rfl,
        Overrides.only_nil]
      rfl
  | items blanksBefore areElements blanksAfter =>
      refine ofConfig_of_readOverrides ?_ blanksAfter
      rw [readOverrides_bracket blanksBefore]
      exact readArray_itemsText areElements start _

/-- A name that is refused is the error, whatever stands behind it. -/
theorem ofConfig_insertedText
    {spelled : Text}
    {error : ConfigError}
    (isInserted : InsertedText chosen spelled names text)
    (nodup : names.Nodup)
    (refused : optionOf spelled (chosen.only names) = .error error) :
    Overrides.ofConfig text = .error error := by
  have read : readOverrides text = .error error := by
    cases isInserted with
    | first blanksBefore isKey behind =>
        rw [Overrides.only_nil] at refused
        rw [readOverrides_brace blanksBefore]
        exact readObject_keyText_error isKey refused behind
    | later blanksBefore areEntries isKey behind =>
        rw [readOverrides_brace blanksBefore]
        exact readObject_itemsText_error areEntries nodup isKey refused behind
  rw [Overrides.ofConfig, read]
  rfl

end

end Config

/-! ## The options that a configuration text gives -/

/-- Is the text JSON, as far as it has been read, but not what options are? -/
def ConfigError.isData : ConfigError → Bool
  | malformed => false
  | mistyped => true
  | unknown _ => true
  | repeated _ => true

namespace Overrides

/-- The text gives what is chosen, and the defaults for everything else. -/
def IsReadFrom (chosen : Overrides) (text : Text) : Prop :=
  ∃ options, Options.ofConfig text = .ok options ∧
    ∀ name, options.value name = (chosen.value? name).getD (Options.default.value name)

/-- The names are those that have a value, each of them once. -/
structure IsOrdering (chosen : Overrides) (names : List OptionName) : Prop where
  nodup : names.Nodup
  mem_iff : ∀ name, name ∈ names ↔ (chosen.value? name).isSome = true

/-- It does not matter how what is chosen is written. -/
structure IsOrderFree (chosen : Overrides) : Prop where
  /-- An object may name the options in any order. -/
  object : ∀ names text, chosen.IsOrdering names → Config.ObjectText chosen names text →
    chosen.IsReadFrom text
  /-- An array of the first values, in the order of the options, is as good as an object. -/
  array : ∀ count text, chosen.IsOrdering (OptionName.all.take count) →
    Config.ArrayText chosen (OptionName.all.take count) text →
    chosen.IsReadFrom text ∧
      ∀ names other, chosen.IsOrdering names → Config.ObjectText chosen names other →
        Options.ofConfig text = Options.ofConfig other
  /-- A name behind some of the entries that is none of an option, or that of an option which
  has been named, is refused, whatever its value is. -/
  inserted : ∀ names name text, names.Nodup → Config.InsertedText chosen name names text →
    (∀ option : OptionName, option.text = name → option ∈ names) →
    ∃ error, Options.ofConfig text = .error error ∧ error.isData = true ∧
      ((∀ option : OptionName, option.text ≠ name) ∧ error = .unknown name ∨
        ∃ option ∈ names, option.text = name ∧ error = .repeated option)

theorem isReadFrom_of_ofConfig
    {chosen : Overrides}
    {text : Text}
    (read : Overrides.ofConfig text = .ok chosen) :
    Options.ofConfig text = .ok (chosen.apply Options.default) ∧ chosen.IsReadFrom text := by
  have options : Options.ofConfig text = .ok (chosen.apply Options.default) := by
    rw [Options.ofConfig, read]
    rfl
  exact ⟨options, _, options, value_apply chosen Options.default⟩

/-- A name that is not to be read is refused. -/
theorem optionOf_eq_error
    {chosen : Overrides}
    {names : List OptionName}
    {name : Text}
    (given : ∀ option ∈ names, (chosen.value? option).isSome = true)
    (known : ∀ option : OptionName, option.text = name → option ∈ names) :
    ∃ error, Config.optionOf name (chosen.only names) = .error error ∧ error.isData = true ∧
      ((∀ option : OptionName, option.text ≠ name) ∧ error = .unknown name ∨
        ∃ option ∈ names, option.text = name ∧ error = .repeated option) := by
  cases found : OptionName.ofText? name with
  | none =>
      refine ⟨.unknown name, ?_, rfl, .inl ⟨fun option same => ?_, rfl⟩⟩
      · rw [Config.optionOf, found]
      · rw [← OptionName.ofText?_eq_some_iff, found] at same
        cases same
  | some option =>
      have same := (OptionName.ofText?_eq_some_iff name option).mp found
      have isKnown := known option same
      refine ⟨.repeated option, ?_, rfl, .inr ⟨option, isKnown, same, rfl⟩⟩
      have gives : (chosen.only names).gives option = true := by
        rw [gives_eq, value?_only, if_pos isKnown, given option isKnown]
      rw [Config.optionOf, found]
      exact if_pos gives

/-- A configuration text gives what is chosen in it, in whatever order and spelling. -/
theorem isOrderFree (chosen : Overrides) : chosen.IsOrderFree := by
  have objects : ∀ names text, chosen.IsOrdering names → Config.ObjectText chosen names text →
      Overrides.ofConfig text = .ok chosen := by
    intro names text ordering isObject
    rw [Config.ofConfig_objectText isObject ordering.nodup,
      only_eq_self fun name => (ordering.mem_iff name).mpr]
  have arrays : ∀ count text, chosen.IsOrdering (OptionName.all.take count) →
      Config.ArrayText chosen (OptionName.all.take count) text →
      Overrides.ofConfig text = .ok chosen := by
    intro count text ordering isArray
    rw [Config.ofConfig_arrayText isArray (List.take_append_drop count _).symm,
      only_eq_self fun name => (ordering.mem_iff name).mpr]
  constructor
  case object =>
    intro names text ordering isObject
    exact (isReadFrom_of_ofConfig (objects names text ordering isObject)).2
  case array =>
    intro count text ordering isArray
    obtain ⟨options, reads⟩ := isReadFrom_of_ofConfig (arrays count text ordering isArray)
    refine ⟨reads, fun names other orderingToo isObject => ?_⟩
    rw [options, (isReadFrom_of_ofConfig (objects names other orderingToo isObject)).1]
  case inserted =>
    intro names name text nodup isInserted known
    obtain ⟨error, refused, reasons⟩ := optionOf_eq_error isInserted.isSome known
    refine ⟨error, ?_, reasons⟩
    rw [Options.ofConfig, Config.ofConfig_insertedText isInserted nodup refused]
    rfl

/-- Two orders of the same two entries, the second one with blanks, and the first one with a
name inserted that has been read. -/
theorem isOrderFree_two_orders :
    ∃ chosen : Overrides, ∃ names : List OptionName,
      (chosen.IsOrdering names ∧
        Config.ObjectText chosen names
          "\x7b\x22riUnit\x22:\x22vw\x22,\x22baseSize\x22:32\x7d".toList) ∧
      (chosen.IsOrdering names.reverse ∧
        Config.ObjectText chosen names.reverse
          "\x7b\x22baseSize\x22: 32,\x22riUnit\x22: \x22vw\x22\x7d".toList) ∧
      Config.InsertedText chosen "riUnit".toList names
        "\x7b\x22riUnit\x22:\x22vw\x22,\x22baseSize\x22:32,\x22riUnit\x22:0\x7d".toList ∧
      chosen.IsOrderFree := by
  have unit : OptionName.IsWritten (.unit .riUnit) "vw".toList "\x22vw\x22".toList :=
    .unit (Json.bodyText_self (by decide))
  have size : OptionName.IsWritten (.size .baseSize) (Binary64.ofNat 32) "32".toList := by
    have areDigits : Text.IsDigits ['3', '2'] := by simp [Text.IsDigits]
    have isNumber := @Json.NumberText.parts false _ none none (.digits areDigits (by decide)) (by simp)
    exact .size isNumber (by decide +kernel)
  have nothing : Json.IsBlankText [] := List.forall_mem_nil _
  have isKey : ∀ name : OptionName, Config.KeyText name.text ('"' :: (name.text ++ ['"'])) := by
    intro name
    refine .quoted nothing (Json.bodyText_self ?_)
    rcases name with (_ | _ | _) | (_ | _ | _) | _ <;> decide
  have isEntry : ∀ {name : OptionName} {value : name.Value} {written between : Text},
      name.IsWritten value written → Json.IsBlankText between →
      Config.EntryText name value ('"' :: (name.text ++ ['"']) ++ ':' :: (between ++ written)) := by
    intro name value written between isWritten blanks
    have isElement := Config.ElementText.value blanks isWritten nothing
    rw [List.append_nil] at isElement
    exact .named (isKey name) nothing isElement
  have space : Json.IsBlankText [' '] := by simp [Json.IsBlankText]
  refine ⟨⟨some (Binary64.ofNat 32), some "vw".toList, none, none, none, none, none⟩,
    [.unit .riUnit, .size .baseSize], ⟨⟨by decide, ?_⟩, ?_⟩, ⟨⟨by decide, ?_⟩, ?_⟩, ?_,
    isOrderFree _⟩
  · rintro ((_ | _ | _) | (_ | _ | _) | _) <;> decide
  · exact .items nothing (.more rfl (isEntry unit nothing) (.last rfl (isEntry size nothing)))
      nothing
  · rintro ((_ | _ | _) | (_ | _ | _) | _) <;> decide
  · exact .items nothing (.more rfl (isEntry size space) (.last rfl (isEntry unit space)))
      nothing
  · exact .later nothing (.more rfl (isEntry unit nothing) (.last rfl (isEntry size nothing)))
      (isKey (.unit .riUnit)) ":0\x7d".toList

end Overrides

end CssRescale
