import CssRescale.Rules.Basic

/-!
Contract: some of the options, and how they are laid over others.

Configuration files and command lines give some options and leave the others.
Laid over options, the ones given replace theirs, field by field.

Owns: the type `Overrides`, its names of options, and `Overrides.apply`.
-/

set_option autoImplicit false

namespace CssRescale

/-- The options, by name. -/
inductive OptionName where
  | size (option : SizeOption)
  | unit (option : UnitOption)
  | precision
deriving DecidableEq, Repr

namespace OptionName

/-- All options, in the order in which a list of values gives them. -/
def all : List OptionName :=
  [size .baseSize, unit .riUnit, unit .unit, unit .absoluteUnit, size .minUnitSize,
    size .minSize, precision]

def text : OptionName → Text
  | size option => option.name
  | unit option => option.name
  | precision => "precision".toList

def ofText? (name : Text) : Option OptionName := all.find? fun option => option.text == name

end OptionName

/-- Some of the options. -/
structure Overrides where
  baseSize : Option Binary64
  riUnit : Option Text
  unit : Option Text
  absoluteUnit : Option Text
  minUnitSize : Option Binary64
  minSize : Option Binary64
  precision : Option Int
deriving DecidableEq

namespace Overrides

def empty : Overrides := ⟨none, none, none, none, none, none, none⟩

def gives (overrides : Overrides) : OptionName → Bool
  | .size .baseSize => overrides.baseSize.isSome
  | .size .minSize => overrides.minSize.isSome
  | .size .minUnitSize => overrides.minUnitSize.isSome
  | .unit .riUnit => overrides.riUnit.isSome
  | .unit .unit => overrides.unit.isSome
  | .unit .absoluteUnit => overrides.absoluteUnit.isSome
  | .precision => overrides.precision.isSome

def giveSize (option : SizeOption) (value : Binary64) (overrides : Overrides) : Overrides :=
  match option with
  | .baseSize => { overrides with baseSize := some value }
  | .minSize => { overrides with minSize := some value }
  | .minUnitSize => { overrides with minUnitSize := some value }

def giveUnit (option : UnitOption) (text : Text) (overrides : Overrides) : Overrides :=
  match option with
  | .riUnit => { overrides with riUnit := some text }
  | .unit => { overrides with unit := some text }
  | .absoluteUnit => { overrides with absoluteUnit := some text }

def givePrecision (digits : Int) (overrides : Overrides) : Overrides :=
  { overrides with precision := some digits }

/-- The options with those given in place of theirs. -/
def apply (overrides : Overrides) (options : Options) : Options where
  baseSize := overrides.baseSize.getD options.baseSize
  riUnit := overrides.riUnit.getD options.riUnit
  unit := overrides.unit.getD options.unit
  absoluteUnit := overrides.absoluteUnit.getD options.absoluteUnit
  minUnitSize := overrides.minUnitSize.getD options.minUnitSize
  minSize := overrides.minSize.getD options.minSize
  precision := overrides.precision.getD options.precision

end Overrides

end CssRescale
