import CssRescale.Decimal.Plain

/-!
Contract: the options of a conversion, and the rules they make if they are valid.

Options are what a user asked for, with a default for each; rules are options
that satisfy every condition, and carry the proofs that they do.

Owns:
- the types `Options` and `Rules` and the defaults;
- the conditions, the order in which they are checked, and the message of each
  failure;
- the factor by which a measurement shrinks at the smallest resolution.

Does not own: reading options from configuration files or command lines.
-/

set_option autoImplicit false

namespace CssRescale

/-- Conversion options as given. -/
structure Options where
  /-- The root font size that conversions are based on. -/
  baseSize : Binary64
  /-- The unit that is written for converted measurements. -/
  riUnit : Text
  unit : Text
  /-- The unit that is replaced by `unit` without scaling. -/
  absoluteUnit : Text
  /-- The smallest size a measurement may shrink to at the smallest resolution. -/
  minUnitSize : Binary64
  /-- The root font size at the smallest resolution. -/
  minSize : Binary64
  /-- The largest number of digits after the decimal point. -/
  precision : Int
deriving DecidableEq

namespace Options

/-- The options that hold where none are given. -/
def default : Options where
  baseSize := Binary64.ofNat 24
  riUnit := ['r', 'e', 'm']
  unit := ['p', 'x']
  absoluteUnit := ['a', 'p', 'x']
  minUnitSize := Binary64.ofNat 1
  minSize := Binary64.ofNat 16
  precision := 5

end Options

/-- The options that are sizes. -/
inductive SizeOption where
  | baseSize
  | minSize
  | minUnitSize
deriving DecidableEq, Repr

/-- The options that are units. -/
inductive UnitOption where
  | riUnit
  | unit
  | absoluteUnit
deriving DecidableEq, Repr

/-- Why options make no rules. -/
inductive OptionsError where
  /-- The size is not a finite number above zero. -/
  | notPositive (option : SizeOption) (got : Binary64)
  /-- The size is not a finite number of at least zero. -/
  | negative (option : SizeOption) (got : Binary64)
  /-- The precision is below zero or too large. -/
  | precision (got : Int)
  | emptyUnit (option : UnitOption)
deriving DecidableEq

def SizeOption.name : SizeOption → Text
  | baseSize => "baseSize".toList
  | minSize => "minSize".toList
  | minUnitSize => "minUnitSize".toList

def UnitOption.name : UnitOption → Text
  | riUnit => "riUnit".toList
  | unit => "unit".toList
  | absoluteUnit => "absoluteUnit".toList

def integerText (value : Int) : Text :=
  Binary64.signText (value < 0) ++ Decimal.naturalDigits value.natAbs

def OptionsError.reason : OptionsError → Text
  | notPositive option got => option.name ++ " must be > 0, got ".toList ++ got.display
  | negative option got => option.name ++ " must be >= 0, got ".toList ++ got.display
  | precision got => "precision must be >= 0, got ".toList ++ integerText got
  | emptyUnit option => option.name ++ " must not be empty".toList

/-- The message of an error in the options. -/
def OptionsError.message (error : OptionsError) : Text :=
  "invalid configuration: ".toList ++ error.reason

def Binary64.IsPositive (value : Binary64) : Prop :=
  value.isFinite = true ∧ Binary64.below (Binary64.zero false) value = true

/-- A finite number of at least zero. -/
def Binary64.IsNonnegative (value : Binary64) : Prop :=
  value.isFinite = true ∧ Binary64.atMost (Binary64.zero false) value = true

instance : DecidablePred Binary64.IsPositive := fun value =>
  inferInstanceAs
    (Decidable (value.isFinite = true ∧ Binary64.below (Binary64.zero false) value = true))

instance : DecidablePred Binary64.IsNonnegative := fun value =>
  inferInstanceAs
    (Decidable (value.isFinite = true ∧ Binary64.atMost (Binary64.zero false) value = true))

theorem Options.default_sizes :
    default.baseSize.IsPositive ∧ default.minSize.IsPositive ∧
      default.minUnitSize.IsNonnegative := by
  decide +kernel

def largestPrecision : Nat := 4294967295

/-- Options that satisfy every condition. -/
structure Rules where
  baseSize : Binary64
  riUnit : Text
  unit : Text
  absoluteUnit : Text
  minUnitSize : Binary64
  minSize : Binary64
  precision : Nat
  baseSize_positive : baseSize.IsPositive
  minSize_positive : minSize.IsPositive
  minUnitSize_nonnegative : minUnitSize.IsNonnegative
  precision_le : precision ≤ largestPrecision
  riUnit_ne_nil : riUnit ≠ []
  unit_ne_nil : unit ≠ []
  absoluteUnit_ne_nil : absoluteUnit ≠ []

namespace Rules

/-- The rules that options make; the first condition that fails is the error. -/
def ofOptions (options : Options) : Except OptionsError Rules :=
  if baseSize_positive : options.baseSize.IsPositive then
    if minSize_positive : options.minSize.IsPositive then
      if minUnitSize_nonnegative : options.minUnitSize.IsNonnegative then
        if precision_range : 0 ≤ options.precision ∧ options.precision ≤ largestPrecision then
          if riUnit_ne_nil : options.riUnit ≠ [] then
            if unit_ne_nil : options.unit ≠ [] then
              if absoluteUnit_ne_nil : options.absoluteUnit ≠ [] then
                .ok
                  { baseSize := options.baseSize
                    riUnit := options.riUnit
                    unit := options.unit
                    absoluteUnit := options.absoluteUnit
                    minUnitSize := options.minUnitSize
                    minSize := options.minSize
                    precision := options.precision.toNat
                    baseSize_positive
                    minSize_positive
                    minUnitSize_nonnegative
                    precision_le := by omega
                    riUnit_ne_nil
                    unit_ne_nil
                    absoluteUnit_ne_nil }
              else .error (.emptyUnit .absoluteUnit)
            else .error (.emptyUnit .unit)
          else .error (.emptyUnit .riUnit)
        else .error (.precision options.precision)
      else .error (.negative .minUnitSize options.minUnitSize)
    else .error (.notPositive .minSize options.minSize)
  else .error (.notPositive .baseSize options.baseSize)

/-- The rules that the default options make. -/
def default : Rules where
  baseSize := Options.default.baseSize
  riUnit := Options.default.riUnit
  unit := Options.default.unit
  absoluteUnit := Options.default.absoluteUnit
  minUnitSize := Options.default.minUnitSize
  minSize := Options.default.minSize
  precision := Options.default.precision.toNat
  baseSize_positive := Options.default_sizes.1
  minSize_positive := Options.default_sizes.2.1
  minUnitSize_nonnegative := Options.default_sizes.2.2
  precision_le := by decide
  riUnit_ne_nil := by decide
  unit_ne_nil := by decide
  absoluteUnit_ne_nil := by decide

theorem ofOptions_default : ofOptions Options.default = .ok default := by
  obtain ⟨baseSize, minSize, minUnitSize⟩ := Options.default_sizes
  have precision : 0 ≤ Options.default.precision ∧ Options.default.precision ≤ largestPrecision := by
    decide
  rw [ofOptions, dif_pos baseSize, dif_pos minSize, dif_pos minUnitSize, dif_pos precision]
  rfl

/-- How much a measurement shrinks at the smallest resolution. -/
def minScaleFactor (rules : Rules) : Binary64 := rules.minSize.div rules.baseSize

end Rules

end CssRescale
