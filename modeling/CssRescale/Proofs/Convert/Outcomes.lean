import CssRescale.Binary64.Bits
import CssRescale.Proofs.Convert.Passes
import Mathlib.Logic.ExistsUnique

/-!
Contract: what becomes of a number in the converted unit.

A size that would shrink too far at the smallest resolution is held: it stays if it is
below the smallest size already, and is clamped to that size otherwise. Every other size
is converted. A product that is NaN, infinite or zero counts as one that does not shrink
too far, so extreme rules convert, and what they convert is finite.

Owns: the three outcomes, and that each number has exactly one of them.
-/

set_option autoImplicit false

namespace CssRescale

open Binary64 (Magnitude atMost below)

namespace Binary64

theorem rank_abs (value : Binary64) : value.abs.rank = value.sizeUnits := by
  cases value <;> rfl

theorem isNan_abs (value : Binary64) : value.abs.isNan = value.isNan := by
  cases value <;> rfl

/-- An absolute value is above zero exactly if it is a number other than zero. -/
theorem below_zero_abs (value : Binary64) :
    below (zero false) value.abs = (!value.isNan && !equal value.abs (zero false)) := by
  rw [below, equal, rank_zero, rank_abs, isNan_abs]
  cases value.isNan with
  | true => rfl
  | false =>
      rcases Nat.eq_zero_or_pos value.sizeUnits with none | positive
      · simp [none, isNan, zero]
      · have nonzero : value.sizeUnits ≠ 0 := by omega
        simp [isNan, zero, positive, nonzero]

end Binary64

namespace Rules

variable (rules : Rules)

/-- At the smallest resolution the size would be above zero and at most the smallest size. -/
def ShrinksTooFar (value : Binary64) : Prop :=
  below (.zero false) (value.mul rules.minScaleFactor).abs = true ∧
    atMost (value.mul rules.minScaleFactor).abs rules.minUnitSize = true

theorem isHeld_iff (value : Binary64) : rules.isHeld value = true ↔ rules.ShrinksTooFar value := by
  unfold isHeld ShrinksTooFar
  rw [Binary64.below_zero_abs]
  simp only [atMost, Binary64.isNan_abs, Bool.and_eq_true]
  constructor
  · rintro ⟨nonzero, ⟨number, other⟩, order⟩
    exact ⟨⟨number, nonzero⟩, ⟨number, other⟩, order⟩
  · rintro ⟨⟨-, nonzero⟩, order⟩
    exact ⟨nonzero, order⟩

/-- What may become of a number in the converted unit. -/
inductive Outcome where
  | stays
  | clamped
  | converted
deriving DecidableEq, Repr

/-- What each outcome says of a measurement before and after. -/
def Outcome.Describes (before after : Measurement) : Outcome → Prop
  | stays =>
      rules.ShrinksTooFar before.value ∧ below before.value.abs rules.minUnitSize = true ∧
        after = before
  | clamped =>
      rules.ShrinksTooFar before.value ∧ atMost rules.minUnitSize before.value.abs = true ∧
        ∃ value, after = before.setValue value ∧ value.abs = rules.minUnitSize ∧
          value.isMinus = before.value.isMinus ∧
          atMost rules.minUnitSize value.abs = true ∧
          atMost value.abs before.value.abs = true
  | converted =>
      ¬rules.ShrinksTooFar before.value ∧
        ∃ value, after = (before.setValue value).setUnit rules.riUnit ∧
          value.isFinite = true ∧ value.isMinus = before.value.isMinus ∧
          (before.value.isZero = true → value.isZero = true)

/-- No two outcomes describe the same measurement. -/
theorem Outcome.Describes.unique
    {rules : Rules}
    {before after : Measurement}
    {outcome other : Outcome}
    (describes : outcome.Describes rules before after)
    (describesOther : other.Describes rules before after) :
    outcome = other := by
  have apart : below before.value.abs rules.minUnitSize = true →
      atMost rules.minUnitSize before.value.abs = true → False := by
    intro small large
    simp only [below, atMost, Bool.and_eq_true, decide_eq_true_eq] at small large
    omega
  cases outcome with
  | stays =>
      cases other with
      | stays => rfl
      | clamped => exact absurd describesOther.2.1 (apart describes.2.1)
      | converted => exact absurd describes.1 describesOther.1
  | clamped =>
      cases other with
      | stays => exact absurd describes.2.1 (apart describesOther.2.1)
      | clamped => rfl
      | converted => exact absurd describes.1 describesOther.1
  | converted =>
      cases other with
      | stays => exact absurd describesOther.1 describes.1
      | clamped => exact absurd describesOther.1 describes.1
      | converted => rfl

variable {rules} {measurement : Measurement}

/-- A size that is held stays or is clamped, and is finite either way. -/
theorem outcome_of_isHeld
    (unit : measurement.unit = some rules.unit)
    (held : rules.isHeld measurement.value = true) :
    (rules.convertMeasurement measurement).value.isFinite = true ∧
      ∃ outcome : Outcome, outcome.Describes rules measurement (rules.convertMeasurement measurement) := by
  have tooFar := (rules.isHeld_iff _).mp held
  rw [convertMeasurement_of_unit unit, scaleMeasurement, if_pos held]
  obtain ⟨negative, size, _, _, floor, value, -, smallest, positive⟩ := finite_of_isHeld held
  rcases Nat.lt_or_ge size.units floor.units with small | large
  · have stays : rules.heldSize measurement.value = measurement.value := by
      rw [heldSize, if_neg]
      simpa [smallest, value, atMost, Binary64.abs, Binary64.isNan] using small
    rw [stays]
    refine ⟨by rw [Measurement.setValue, value]; rfl, .stays, tooFar, ?_, rfl⟩
    simpa [smallest, value, below, Binary64.abs, Binary64.isNan] using small
  · have clamped : rules.heldSize measurement.value = .finite negative floor := by
      rw [value, heldSize_of_le smallest positive large]
    have order : atMost rules.minUnitSize measurement.value.abs = true := by
      simpa [smallest, value, atMost, Binary64.abs, Binary64.isNan] using large
    rw [clamped]
    refine ⟨rfl, .clamped, tooFar, order, .finite negative floor, rfl, smallest.symm, ?_, ?_, ?_⟩
    · rw [value]
      rfl
    · simp [smallest, atMost, Binary64.abs, Binary64.isNan]
    · rw [smallest] at order
      exact order

/-- A size that is not held is converted, to a finite number. -/
theorem outcome_of_not_isHeld
    (unit : measurement.unit = some rules.unit)
    (number : measurement.value.isNan = false)
    (free : ¬rules.isHeld measurement.value = true) :
    (rules.convertMeasurement measurement).value.isFinite = true ∧
      ∃ outcome : Outcome, outcome.Describes rules measurement (rules.convertMeasurement measurement) := by
  have tooFar := mt (rules.isHeld_iff _).mpr free
  obtain ⟨finite, sign⟩ : (rules.convertSize measurement.value).isFinite = true ∧
      (rules.convertSize measurement.value).isMinus = measurement.value.isMinus := by
    rw [rules.convertSize_eq number]
    exact ⟨rfl, rfl⟩
  rw [convertMeasurement_of_unit unit, scaleMeasurement, if_neg free]
  exact ⟨finite, .converted, tooFar, rules.convertSize measurement.value, rfl, finite, sign,
    rules.isZero_convertSize⟩

/-- A number in the converted unit has exactly one of the outcomes, and is finite after it.

It stays, or is clamped to the smallest size with its own sign, if it would shrink too far
and is below the smallest size already, or not; and it is converted, to a finite number
with its own sign, exactly if it would not shrink too far. This holds for all rules, also
where the factor to the smallest resolution is zero or infinite. -/
theorem existsUnique_outcome
    (unit : measurement.unit = some rules.unit)
    (number : measurement.value.isNan = false) :
    (rules.convertMeasurement measurement).value.isFinite = true ∧
      ∃! outcome : Outcome,
        outcome.Describes rules measurement (rules.convertMeasurement measurement) := by
  by_cases held : rules.isHeld measurement.value = true
  · obtain ⟨finite, outcome, describes⟩ := outcome_of_isHeld unit held
    exact ⟨finite, outcome, describes, fun _ other => other.unique describes⟩
  · obtain ⟨finite, outcome, describes⟩ := outcome_of_not_isHeld unit number held
    exact ⟨finite, outcome, describes, fun _ other => other.unique describes⟩

/-- Rules whose factor to the smallest resolution and whose power of ten are infinite. -/
def extreme : Rules :=
  { default with
    baseSize := .ofBits 1
    minSize := .finite false Magnitude.largest
    precision := 400
    baseSize_positive := by decide +kernel
    minSize_positive := by decide +kernel
    precision_le := by decide }

/-- Zero times the infinite factor is NaN, and zero is converted. -/
theorem existsUnique_outcome_extreme :
    (Binary64.mul (.ofNat 0) extreme.minScaleFactor).isNan = true ∧
      (Binary64.tenPower extreme.precision).isFinite = false ∧
      (extreme.convertMeasurement
          ⟨.ofNat 0, some extreme.unit, ['0'], extreme.unit, .ofNat 0⟩).value.isFinite = true ∧
      ∃! outcome : Outcome,
        outcome.Describes extreme ⟨.ofNat 0, some extreme.unit, ['0'], extreme.unit, .ofNat 0⟩
          (extreme.convertMeasurement
            ⟨.ofNat 0, some extreme.unit, ['0'], extreme.unit, .ofNat 0⟩) :=
  ⟨by decide +kernel, by decide +kernel, existsUnique_outcome rfl (by decide +kernel)⟩

end Rules

end CssRescale
