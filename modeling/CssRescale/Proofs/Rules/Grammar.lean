import CssRescale.Proofs.Json.Number
import CssRescale.Proofs.Json.Text
import CssRescale.Proofs.Rules.Values

/-!
Contract: how options are written in configuration texts.

An object has entries, each of them a name and its value; an array has values only. Between
any two tokens there may be blanks, and names and values may have any spelling that JSON has
for them.

Owns:
- the spellings of values, names, entries and elements;
- objects and arrays of options, and objects in which a name is inserted.

Does not own: reading them.
-/

set_option autoImplicit false

namespace CssRescale

namespace OptionName

/-- The spellings of a value that the option may have: sizes are numbers, units are strings,
and the precision is an integer. -/
inductive IsWritten : (name : OptionName) → name.Value → Text → Prop where
  | size {option : SizeOption} {numeral : Json.Numeral} {value : Binary64} {written : Text}
      (isNumber : Json.NumberText numeral written)
      (isValue : numeral.value? = some value) :
      IsWritten (.size option) value written
  | unit {option : UnitOption} {text body : Text}
      (isString : Json.BodyText text body) :
      IsWritten (.unit option) text ('"' :: (body ++ ['"']))
  | precision {digits : Int} {written : Text}
      (isInteger : Json.IntegerText digits written) :
      IsWritten .precision digits written

end OptionName

namespace Config

open Json (IsBlankText)

/-- The spellings of a name in an object. -/
inductive KeyText (name : Text) : Text → Prop where
  | quoted {before body : Text}
      (blanksBefore : IsBlankText before)
      (isString : Json.BodyText name body) :
      KeyText name (before ++ '"' :: (body ++ ['"']))

/-- A value between blanks. -/
inductive ElementText (name : OptionName) (value : name.Value) : Text → Prop where
  | value {before written after : Text}
      (blanksBefore : IsBlankText before)
      (isWritten : name.IsWritten value written)
      (blanksAfter : IsBlankText after) :
      ElementText name value (before ++ (written ++ after))

/-- A name and its value. -/
inductive EntryText (name : OptionName) (value : name.Value) : Text → Prop where
  | named {key between element : Text}
      (isKey : KeyText name.text key)
      (blanks : IsBlankText between)
      (isElement : ElementText name value element) :
      EntryText name value (key ++ (between ++ ':' :: element))

/-- Items of the options, in this order, that give them the values that are chosen. -/
inductive ItemsText
    (Item : (name : OptionName) → name.Value → Text → Prop)
    (chosen : Overrides) :
    List OptionName → Text → Prop where
  | last {name : OptionName} {value : name.Value} {item : Text}
      (isChosen : chosen.value? name = some value)
      (isItem : Item name value item) :
      ItemsText Item chosen [name] item
  | more {name : OptionName} {value : name.Value} {item items : Text} {names : List OptionName}
      (isChosen : chosen.value? name = some value)
      (isItem : Item name value item)
      (areItems : ItemsText Item chosen names items) :
      ItemsText Item chosen (name :: names) (item ++ ',' :: items)

/-- Items between brackets, or nothing between them. -/
inductive EnclosedText
    (opening closing : Char)
    (Item : (name : OptionName) → name.Value → Text → Prop)
    (chosen : Overrides) :
    List OptionName → Text → Prop where
  | empty {before inside after : Text}
      (blanksBefore : IsBlankText before)
      (blanksInside : IsBlankText inside)
      (blanksAfter : IsBlankText after) :
      EnclosedText opening closing Item chosen []
        (before ++ opening :: (inside ++ closing :: after))
  | items {before inside after : Text} {names : List OptionName}
      (blanksBefore : IsBlankText before)
      (areItems : ItemsText Item chosen names inside)
      (blanksAfter : IsBlankText after) :
      EnclosedText opening closing Item chosen names
        (before ++ opening :: (inside ++ closing :: after))

/-- Objects that name these options, in this order. -/
abbrev ObjectText (chosen : Overrides) : List OptionName → Text → Prop :=
  EnclosedText '\x7b' '\x7d' EntryText chosen

/-- Arrays of the values of these options, in this order. -/
abbrev ArrayText (chosen : Overrides) : List OptionName → Text → Prop :=
  EnclosedText '[' ']' ElementText chosen

/-- Objects in which a name stands behind the entries of these options, be it followed by
its value and further entries or by anything else. -/
inductive InsertedText (chosen : Overrides) (name : Text) : List OptionName → Text → Prop where
  | first {before key : Text}
      (blanksBefore : IsBlankText before)
      (isKey : KeyText name key)
      (behind : Text) :
      InsertedText chosen name [] (before ++ '\x7b' :: (key ++ behind))
  | later {before entries key : Text} {names : List OptionName}
      (blanksBefore : IsBlankText before)
      (areEntries : ItemsText EntryText chosen names entries)
      (isKey : KeyText name key)
      (behind : Text) :
      InsertedText chosen name names (before ++ '\x7b' :: (entries ++ ',' :: (key ++ behind)))

section

variable
  {chosen : Overrides}
  {names : List OptionName}
  {text : Text}

/-- What was read before is given. -/
theorem ItemsText.isSome
    {Item : (name : OptionName) → name.Value → Text → Prop}
    (areItems : ItemsText Item chosen names text) :
    ∀ name ∈ names, (chosen.value? name).isSome = true := by
  induction areItems with
  | last isChosen _ => simp [isChosen]
  | more isChosen _ _ inductionHypothesis => simpa [isChosen] using inductionHypothesis

theorem InsertedText.isSome
    {spelled : Text}
    (isInserted : InsertedText chosen spelled names text) :
    ∀ name ∈ names, (chosen.value? name).isSome = true := by
  cases isInserted with
  | first _ _ _ => exact nofun
  | later _ areEntries _ _ => exact areEntries.isSome

end

end Config

end CssRescale
