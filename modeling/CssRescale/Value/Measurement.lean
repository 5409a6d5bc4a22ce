import CssRescale.Decimal.Plain
import CssRescale.Decimal.Reading

/-!
Contract: numbers of a value, which remember how they were written.

A measurement holds its present value and unit beside the text it was read
from. As long as both still equal what was read, it is written as that text.

Owns: the type `Measurement`, reading it from a literal and a unit, changing
it, and writing it.
-/

set_option autoImplicit false

namespace CssRescale

/-- A number with an optional unit, and the source it was read from. -/
structure Measurement where
  value : Binary64
  unit : Option Text
  literal : Text
  /-- The unit as written, empty if there was none. -/
  suffix : Text
  sourceValue : Binary64
deriving DecidableEq

namespace Measurement

/-- A unit as written; an empty one is no unit. -/
def unitOf (suffix : Text) : Option Text :=
  if suffix.isEmpty then none else some suffix

/-- Reads a measurement, if the literal is a number. -/
def read? (literal suffix : Text) : Option Measurement :=
  (Decimal.read? literal).map fun value =>
    ⟨value, unitOf suffix, literal, suffix, value⟩

/-- Reads a measurement from a text whose unit starts at the given byte. -/
def readSplit? (text : Text) (unitStart : Nat) : Option Measurement := do
  let (literal, suffix) ← Text.splitAtByte? text unitStart
  read? literal suffix

/-- The text the measurement was read from. -/
def source (measurement : Measurement) : Text := measurement.literal ++ measurement.suffix

/-- The unit the measurement was read with. -/
def sourceUnit (measurement : Measurement) : Option Text := unitOf measurement.suffix

/-- Does the value or the unit differ from what was read? NaN differs from itself. -/
def isModified (measurement : Measurement) : Bool :=
  !Binary64.equal measurement.value measurement.sourceValue
    || measurement.unit != measurement.sourceUnit

/-- The written form: the source text if nothing differs from it. -/
def css (measurement : Measurement) : Text :=
  if measurement.isModified then measurement.value.cssText ++ measurement.unit.getD []
  else measurement.source

def setValue (value : Binary64) (measurement : Measurement) : Measurement :=
  { measurement with value }

def setUnit (unit : Text) (measurement : Measurement) : Measurement :=
  { measurement with unit := some unit }

/-- Equality in every part, with numbers compared as numbers: one that is NaN
equals nothing, and the zeros are equal. -/
def same (left right : Measurement) : Bool :=
  Binary64.equal left.value right.value && left.unit == right.unit
    && left.literal == right.literal && left.suffix == right.suffix
    && Binary64.equal left.sourceValue right.sourceValue

end Measurement

end CssRescale
