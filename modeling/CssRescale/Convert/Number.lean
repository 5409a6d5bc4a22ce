import CssRescale.Rules.Basic
import CssRescale.Value.Measurement

/-!
Contract: what conversion does to one measurement.

A measurement in the converted unit is divided by the base size and gets the
resolution-independent unit, unless it would become too small at the smallest
resolution: then it is held at the smallest size, or left alone if it is below
that already. A measurement in the absolute unit only changes its unit. Every
other measurement stays.
-/

set_option autoImplicit false

namespace CssRescale

/-- What conversion does to a measurement, by its unit. -/
inductive Eligibility where
  | scale
  | relabel
deriving DecidableEq, Repr

/-- Rounds to a number of digits after the decimal point, halves away from
zero. A value too large to be scaled by the power of ten is returned as it is. -/
def roundToPrecision (value : Binary64) (precision : Nat) : Binary64 :=
  let factor := Binary64.tenPower precision
  let scaled := value.mul factor
  let rounded := scaled.round.div factor
  if factor.isFinite && scaled.isFinite && rounded.isFinite then rounded else value

namespace Rules

/-- What conversion does to a measurement with this unit. -/
def eligibility? (rules : Rules) (unit : Option Text) : Option Eligibility :=
  if unit = some rules.unit then some .scale
  else if unit = some rules.absoluteUnit then some .relabel
  else none

def convertSize (rules : Rules) (value : Binary64) : Binary64 :=
  roundToPrecision (value.div rules.baseSize).saturate rules.precision

/-- Would the size, at the smallest resolution, be at most the smallest size
without vanishing? -/
def isHeld (rules : Rules) (value : Binary64) : Bool :=
  let shrunk := (value.mul rules.minScaleFactor).abs
  !Binary64.equal shrunk (Binary64.zero false) && Binary64.atMost shrunk rules.minUnitSize

/-- A size that is held: it shrinks to the smallest size, with its sign, and a
size below that stays. -/
def heldSize (rules : Rules) (value : Binary64) : Binary64 :=
  if Binary64.atMost rules.minUnitSize value.abs then
    if Binary64.below value (Binary64.zero false) then rules.minUnitSize.neg
    else rules.minUnitSize
  else value

/-- Converts a measurement in the converted unit. -/
def scaleMeasurement (rules : Rules) (measurement : Measurement) : Measurement :=
  if rules.isHeld measurement.value then
    measurement.setValue (rules.heldSize measurement.value)
  else
    (measurement.setValue (rules.convertSize measurement.value)).setUnit rules.riUnit

def convertMeasurement (rules : Rules) (measurement : Measurement) : Measurement :=
  match rules.eligibility? measurement.unit with
  | some .scale => rules.scaleMeasurement measurement
  | some .relabel => measurement.setUnit rules.unit
  | none => measurement

/-- Does a measurement count as rewritten? It has to be eligible and to differ
from its source after conversion. -/
def isRewritten (rules : Rules) (measurement : Measurement) : Bool :=
  (rules.eligibility? measurement.unit).isSome
    && (rules.convertMeasurement measurement).isModified

end Rules

end CssRescale
