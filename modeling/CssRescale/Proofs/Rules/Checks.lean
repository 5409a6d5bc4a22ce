import CssRescale.Proofs.Binary64.Sign
import CssRescale.Proofs.Rules.Values

/-!
Contract: which options make rules.

Each option has a condition of its own, on its value alone. The conditions are checked in
one order, and the first value that is refused is the error. Rules are the options that
they were made from.

Owns:
- the condition of each option, the error if it fails, and the order of the checks;
- the options of rules;
- when options make rules, and otherwise the error.
-/

set_option autoImplicit false

namespace CssRescale

/-! ## Conditions -/

namespace Binary64

/-- Is this a finite number above zero? -/
def isAboveZero : Binary64 → Bool
  | finite false size => size.units != 0
  | _ => false

/-- Is this a finite number not below zero? Both zeros are. -/
def isNotBelowZero : Binary64 → Bool
  | finite negative size => !negative || size.units == 0
  | _ => false

theorem isAboveZero_iff (value : Binary64) : value.isAboveZero = true ↔ value.IsPositive := by
  simp only [IsPositive, below, rank_zero, Bool.and_eq_true, decide_eq_true_eq]
  cases value with
  | nan => simp [isAboveZero, isFinite]
  | infinite negative => simp [isAboveZero, isFinite]
  | finite negative size =>
      cases negative with
      | false => simp [isAboveZero, isFinite, isNan, zero, Nat.pos_iff_ne_zero]
      | true => simp [isAboveZero, isFinite, isNan, zero]

theorem isNotBelowZero_iff (value : Binary64) :
    value.isNotBelowZero = true ↔ value.IsNonnegative := by
  simp only [IsNonnegative, atMost, rank_zero, Bool.and_eq_true, decide_eq_true_eq]
  cases value with
  | nan => simp [isNotBelowZero, isFinite]
  | infinite negative => simp [isNotBelowZero, isFinite]
  | finite negative size =>
      cases negative with
      | false => simp [isNotBelowZero, isFinite, isNan, zero]
      | true => simp [isNotBelowZero, isFinite, isNan, zero]

end Binary64

namespace OptionName

/-- The option may have this value in rules. -/
def Allows : (name : OptionName) → name.Value → Prop
  | .size .minUnitSize, value => value.isNotBelowZero = true
  | .size _, value => value.isAboveZero = true
  | .precision, digits => 0 ≤ digits ∧ digits ≤ 4294967295
  | .unit _, text => text ≠ []

instance (name : OptionName) : DecidablePred name.Allows := fun value =>
  match name, value with
  | .size .minUnitSize, value => inferInstanceAs (Decidable (value.isNotBelowZero = true))
  | .size .baseSize, value => inferInstanceAs (Decidable (value.isAboveZero = true))
  | .size .minSize, value => inferInstanceAs (Decidable (value.isAboveZero = true))
  | .precision, digits => inferInstanceAs (Decidable (0 ≤ digits ∧ digits ≤ 4294967295))
  | .unit _, text => inferInstanceAs (Decidable (text ≠ []))

/-- The error if the option may not have this value. -/
def refusal : (name : OptionName) → name.Value → OptionsError
  | .size .minUnitSize, value => .negative .minUnitSize value
  | .size option, value => .notPositive option value
  | .precision, digits => .precision digits
  | .unit option, _ => .emptyUnit option

/-- All options, in the order in which they are checked. -/
def checked : List OptionName :=
  [size .baseSize, size .minSize, size .minUnitSize, precision, unit .riUnit, unit .unit,
    unit .absoluteUnit]

theorem mem_checked (name : OptionName) : name ∈ checked := by
  rcases name with (_ | _ | _) | (_ | _ | _) | _ <;> decide

end OptionName

namespace Options

/-- The error of an option whose value is refused. -/
def refusalOf? (options : Options) (name : OptionName) : Option OptionsError :=
  if name.Allows (options.value name) then none else some (name.refusal (options.value name))

/-- The error of the first option whose value is refused. -/
def refusal? (options : Options) : Option OptionsError :=
  OptionName.checked.findSome? options.refusalOf?

section

variable
  {options : Options}
  (name : OptionName)
  {rest : List OptionName}

theorem findSome?_allowed (allowed : name.Allows (options.value name)) :
    (name :: rest).findSome? options.refusalOf? = rest.findSome? options.refusalOf? := by
  rw [List.findSome?_cons, refusalOf?, if_pos allowed]

theorem findSome?_refused (refused : ¬name.Allows (options.value name)) :
    (name :: rest).findSome? options.refusalOf? = some (name.refusal (options.value name)) := by
  rw [List.findSome?_cons, refusalOf?, if_neg refused]

end

/-- Nothing is refused if each value is allowed. -/
theorem refusal?_eq_none_iff (options : Options) :
    options.refusal? = none ↔ ∀ name : OptionName, name.Allows (options.value name) := by
  have refusalOf? : ∀ name, options.refusalOf? name = none ↔ name.Allows (options.value name) := by
    intro name
    unfold Options.refusalOf?
    split
    case isTrue allowed => exact iff_of_true rfl allowed
    case isFalse refused => exact iff_of_false nofun refused
  simp only [refusal?, List.findSome?_eq_none_iff, refusalOf?]
  exact ⟨fun allowed name => allowed name name.mem_checked, fun allowed name _ => allowed name⟩

end Options

/-! ## Rules -/

namespace Rules

/-- The options that rules are. -/
def toOptions (rules : Rules) : Options where
  baseSize := rules.baseSize
  riUnit := rules.riUnit
  unit := rules.unit
  absoluteUnit := rules.absoluteUnit
  minUnitSize := rules.minUnitSize
  minSize := rules.minSize
  precision := rules.precision

theorem toOptions_injective
    {left right : Rules}
    (same : left.toOptions = right.toOptions) :
    left = right := by
  obtain ⟨baseSize, riUnit, unit, absoluteUnit, minUnitSize, minSize, precision⟩ := left
  simp only [toOptions, Options.mk.injEq, Int.natCast_inj] at same
  obtain ⟨rfl, rfl, rfl, rfl, rfl, rfl, rfl⟩ := same
  rfl

/-- Options of which nothing is refused make rules that are these options; otherwise the
first refusal is the error. -/
theorem ofOptions_cases (options : Options) :
    (options.refusal? = none ∧ ∃ rules, ofOptions options = .ok rules ∧ rules.toOptions = options) ∨
      ∃ error, options.refusal? = some error ∧ ofOptions options = .error error := by
  have positive := fun value => (Binary64.isAboveZero_iff value).symm
  have nonnegative := fun value => (Binary64.isNotBelowZero_iff value).symm
  unfold ofOptions Options.refusal? OptionName.checked
  by_cases baseSize : options.baseSize.IsPositive
  case neg =>
    exact .inr ⟨_, Options.findSome?_refused _ (mt (positive _).mpr baseSize), dif_neg baseSize⟩
  rw [Options.findSome?_allowed (.size .baseSize) ((positive _).mp baseSize), dif_pos baseSize]
  by_cases minSize : options.minSize.IsPositive
  case neg =>
    exact .inr ⟨_, Options.findSome?_refused _ (mt (positive _).mpr minSize), dif_neg minSize⟩
  rw [Options.findSome?_allowed (.size .minSize) ((positive _).mp minSize), dif_pos minSize]
  by_cases minUnitSize : options.minUnitSize.IsNonnegative
  case neg =>
    exact .inr ⟨_, Options.findSome?_refused _ (mt (nonnegative _).mpr minUnitSize),
      dif_neg minUnitSize⟩
  rw [Options.findSome?_allowed (.size .minUnitSize) ((nonnegative _).mp minUnitSize),
    dif_pos minUnitSize]
  by_cases precision : 0 ≤ options.precision ∧ options.precision ≤ largestPrecision
  case neg => exact .inr ⟨_, Options.findSome?_refused _ precision, dif_neg precision⟩
  rw [Options.findSome?_allowed .precision precision, dif_pos precision]
  by_cases riUnit : options.riUnit ≠ []
  case neg => exact .inr ⟨_, Options.findSome?_refused _ riUnit, dif_neg riUnit⟩
  rw [Options.findSome?_allowed (.unit .riUnit) riUnit, dif_pos riUnit]
  by_cases unit : options.unit ≠ []
  case neg => exact .inr ⟨_, Options.findSome?_refused _ unit, dif_neg unit⟩
  rw [Options.findSome?_allowed (.unit .unit) unit, dif_pos unit]
  by_cases absoluteUnit : options.absoluteUnit ≠ []
  case neg => exact .inr ⟨_, Options.findSome?_refused _ absoluteUnit, dif_neg absoluteUnit⟩
  refine .inl ⟨Options.findSome?_allowed (.unit .absoluteUnit) absoluteUnit, _,
    dif_pos absoluteUnit, ?_⟩
  rw [toOptions, Options.mk.injEq]
  exact ⟨rfl, rfl, rfl, rfl, rfl, rfl, Int.toNat_of_nonneg precision.1⟩

theorem ofOptions_eq_error_iff (options : Options) (error : OptionsError) :
    ofOptions options = .error error ↔ options.refusal? = some error := by
  rcases ofOptions_cases options with ⟨nothing, rules, made, -⟩ | ⟨first, refused, failed⟩
  · rw [nothing, made]
    exact ⟨nofun, nofun⟩
  · rw [refused, failed, Except.error.injEq, Option.some.injEq]

theorem ofOptions_eq_ok_iff (options : Options) (rules : Rules) :
    ofOptions options = .ok rules ↔ options.refusal? = none ∧ rules.toOptions = options := by
  rcases ofOptions_cases options with ⟨nothing, others, made, same⟩ | ⟨first, refused, failed⟩
  · rw [nothing, made, Except.ok.injEq]
    constructor
    · rintro rfl
      exact ⟨rfl, same⟩
    · rintro ⟨-, sameToo⟩
      exact toOptions_injective (same.trans sameToo.symm)
  · rw [refused, failed]
    exact ⟨nofun, nofun⟩

end Rules

end CssRescale
