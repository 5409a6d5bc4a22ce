import CssRescale.Rules.Overrides

/-!
Contract: options by their names.

Options, and some of the options, are known by the value under each name. To give a value
replaces the one under its name and no other; to lay some of the options over options
replaces what is given, name by name.

Owns:
- the values that an option can have;
- the value under a name, in options and in some of the options;
- what giving a value and laying over options do under each name;
- what is given under some of the names.

Does not own: where values come from, and which of them make rules.
-/

set_option autoImplicit false

namespace CssRescale

/-- The values that an option can have. -/
abbrev OptionName.Value : OptionName → Type
  | .size _ => Binary64
  | .unit _ => Text
  | .precision => Int

namespace OptionName

theorem mem_all (name : OptionName) : name ∈ all := by
  rcases name with (_ | _ | _) | (_ | _ | _) | _ <;> decide

theorem ofText?_text (name : OptionName) : ofText? name.text = some name := by
  rcases name with (_ | _ | _) | (_ | _ | _) | _ <;> decide

theorem ofText?_eq_some_iff (written : Text) (name : OptionName) :
    ofText? written = some name ↔ name.text = written := by
  constructor
  · intro found
    have same := List.find?_some found
    rwa [beq_iff_eq] at same
  · rintro rfl
    exact ofText?_text name

end OptionName

namespace Options

/-- The value under a name. -/
def value (options : Options) : (name : OptionName) → name.Value
  | .size .baseSize => options.baseSize
  | .size .minSize => options.minSize
  | .size .minUnitSize => options.minUnitSize
  | .unit .riUnit => options.riUnit
  | .unit .unit => options.unit
  | .unit .absoluteUnit => options.absoluteUnit
  | .precision => options.precision

/-- Options are known by their values. -/
theorem ext_value
    {left right : Options}
    (same : ∀ name, left.value name = right.value name) :
    left = right := by
  have baseSize : left.baseSize = right.baseSize := same (.size .baseSize)
  have minSize : left.minSize = right.minSize := same (.size .minSize)
  have minUnitSize : left.minUnitSize = right.minUnitSize := same (.size .minUnitSize)
  have riUnit : left.riUnit = right.riUnit := same (.unit .riUnit)
  have unit : left.unit = right.unit := same (.unit .unit)
  have absoluteUnit : left.absoluteUnit = right.absoluteUnit := same (.unit .absoluteUnit)
  have precision : left.precision = right.precision := same .precision
  rw [Options.mk.injEq]
  exact ⟨baseSize, riUnit, unit, absoluteUnit, minUnitSize, minSize, precision⟩

end Options

namespace Overrides

/-- The value that is given under a name. -/
def value? (overrides : Overrides) : (name : OptionName) → Option name.Value
  | .size .baseSize => overrides.baseSize
  | .size .minSize => overrides.minSize
  | .size .minUnitSize => overrides.minUnitSize
  | .unit .riUnit => overrides.riUnit
  | .unit .unit => overrides.unit
  | .unit .absoluteUnit => overrides.absoluteUnit
  | .precision => overrides.precision

def give (name : OptionName) (value : name.Value) (overrides : Overrides) : Overrides :=
  match name with
  | .size option => overrides.giveSize option value
  | .unit option => overrides.giveUnit option value
  | .precision => overrides.givePrecision value

/-- Some of the options are known by what is given. -/
theorem ext_value?
    {left right : Overrides}
    (same : ∀ name, left.value? name = right.value? name) :
    left = right := by
  have baseSize : left.baseSize = right.baseSize := same (.size .baseSize)
  have minSize : left.minSize = right.minSize := same (.size .minSize)
  have minUnitSize : left.minUnitSize = right.minUnitSize := same (.size .minUnitSize)
  have riUnit : left.riUnit = right.riUnit := same (.unit .riUnit)
  have unit : left.unit = right.unit := same (.unit .unit)
  have absoluteUnit : left.absoluteUnit = right.absoluteUnit := same (.unit .absoluteUnit)
  have precision : left.precision = right.precision := same .precision
  rw [Overrides.mk.injEq]
  exact ⟨baseSize, riUnit, unit, absoluteUnit, minUnitSize, minSize, precision⟩

theorem value?_empty (name : OptionName) : empty.value? name = none := by
  rcases name with (_ | _ | _) | (_ | _ | _) | _ <;> rfl

theorem gives_eq (overrides : Overrides) (name : OptionName) :
    overrides.gives name = (overrides.value? name).isSome := by
  rcases name with (_ | _ | _) | (_ | _ | _) | _ <;> rfl

@[simp]
theorem value?_give_self (overrides : Overrides) (name : OptionName) (value : name.Value) :
    (overrides.give name value).value? name = some value := by
  rcases name with (_ | _ | _) | (_ | _ | _) | _ <;> rfl

/-- What is given under one name is not given under another. -/
theorem value?_give_of_ne
    {name other : OptionName}
    (ne : other ≠ name)
    (overrides : Overrides)
    (value : name.Value) :
    (overrides.give name value).value? other = overrides.value? other := by
  -- There are seven names, each with a field of its own.
  rcases name with (_ | _ | _) | (_ | _ | _) | _ <;>
    rcases other with (_ | _ | _) | (_ | _ | _) | _ <;>
      first | exact absurd rfl ne | rfl

theorem apply_empty (options : Options) : empty.apply options = options := rfl

/-- Laid over options, what is given is the value, and else the value is theirs. -/
theorem value_apply (overrides : Overrides) (options : Options) (name : OptionName) :
    (overrides.apply options).value name = (overrides.value? name).getD (options.value name) := by
  rcases name with (_ | _ | _) | (_ | _ | _) | _ <;> rfl

/-! ## Some of the names -/

section

/-- What is given under these names. -/
def only (names : List OptionName) (overrides : Overrides) : Overrides where
  baseSize := if .size .baseSize ∈ names then overrides.baseSize else none
  riUnit := if .unit .riUnit ∈ names then overrides.riUnit else none
  unit := if .unit .unit ∈ names then overrides.unit else none
  absoluteUnit := if .unit .absoluteUnit ∈ names then overrides.absoluteUnit else none
  minUnitSize := if .size .minUnitSize ∈ names then overrides.minUnitSize else none
  minSize := if .size .minSize ∈ names then overrides.minSize else none
  precision := if .precision ∈ names then overrides.precision else none

variable
  (overrides : Overrides)
  (names : List OptionName)

theorem value?_only (name : OptionName) :
    (overrides.only names).value? name = if name ∈ names then overrides.value? name else none := by
  rcases name with (_ | _ | _) | (_ | _ | _) | _ <;> rfl

theorem only_nil : overrides.only [] = empty := by
  refine ext_value? fun name => ?_
  rw [value?_only, value?_empty, if_neg List.not_mem_nil]

variable {overrides names}

/-- What is given under all names is everything. -/
theorem only_eq_self
    (all : ∀ name, (overrides.value? name).isSome = true → name ∈ names) :
    overrides.only names = overrides := by
  refine ext_value? fun name => ?_
  rw [value?_only]
  split
  case isTrue => rfl
  case isFalse notGiven =>
    exact (Option.isNone_iff_eq_none.mp (by simpa using mt (all name) notGiven)).symm

theorem give_only
    {name : OptionName}
    {value : name.Value}
    (isGiven : overrides.value? name = some value) :
    (overrides.only names).give name value = overrides.only (names ++ [name]) := by
  refine ext_value? fun other => ?_
  by_cases same : other = name
  · subst same
    rw [value?_give_self, value?_only, if_pos (by simp), isGiven]
  · rw [value?_give_of_ne same, value?_only, value?_only]
    simp [same]

end

end Overrides

end CssRescale
