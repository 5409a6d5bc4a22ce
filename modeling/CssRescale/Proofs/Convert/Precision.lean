import CssRescale.Convert.Number
import CssRescale.Proofs.Binary64.Quotients
import CssRescale.Proofs.Binary64.Sign

/-!
Contract: rounding to a number of decimal places, on magnitudes.

A size is multiplied by a power of ten, rounded to a whole number and divided again, each
step with a rounding of its own; where the power or the product is infinite, it stays as
it is. The sign takes no part in this.

Owns:
- `Magnitude.nearest`, the rounding that every step ends in, with infinities saturated;
- powers of ten are at least one;
- `Magnitude.toPrecision`, and that it is what rounding does to every finite number;
- its order: a size that is rounded stays below one that is too large to be scaled.
-/

set_option autoImplicit false

namespace CssRescale.Binary64

/-! ## Saturated rounding -/

theorem representable_roundUnits
    {numerator denominator : Nat}
    (below : roundUnits numerator denominator < overflowUnits) :
    Representable (roundUnits numerator denominator) :=
  ⟨below, spacing_dvd_roundUnits _ _⟩

/-- The magnitude nearest to a quotient, or the largest one if that overflows. -/
def Magnitude.nearest (numerator denominator : Nat) : Magnitude :=
  if below : roundUnits numerator denominator < overflowUnits then
    ⟨roundUnits numerator denominator, representable_roundUnits below⟩
  else
    largest

section

variable {numerator denominator : Nat}

theorem Magnitude.units_nearest
    (below : roundUnits numerator denominator < overflowUnits) :
    (nearest numerator denominator).units = roundUnits numerator denominator := by
  rw [nearest, dif_pos below]

theorem ofUnits_eq_nearest
    (negative : Bool)
    (below : roundUnits numerator denominator < overflowUnits) :
    ofUnits negative numerator denominator =
      finite negative (Magnitude.nearest numerator denominator) := by
  rw [ofUnits, dif_pos below, Magnitude.nearest, dif_pos below]

theorem saturate_ofUnits (negative : Bool) :
    (ofUnits negative numerator denominator).saturate =
      finite negative (Magnitude.nearest numerator denominator) := by
  by_cases below : roundUnits numerator denominator < overflowUnits
  · rw [ofUnits_eq_nearest negative below]
    rfl
  · rw [ofUnits, dif_neg below, Magnitude.nearest, dif_neg below]
    rfl

/-- A quotient of at most the largest number does not overflow. -/
theorem lt_overflowUnits_of_le
    (positive : 0 < denominator)
    (order : numerator ≤ Magnitude.largest.units * denominator) :
    roundUnits numerator denominator < overflowUnits := by
  apply Nat.lt_of_le_of_lt _ Magnitude.largest.representable.1
  exact roundUnits_le_of_le positive Magnitude.largest.representable.2 order

theorem Magnitude.units_nearest_zero (denominator : Nat) : (nearest 0 denominator).units = 0 := by
  have below : roundUnits 0 denominator < overflowUnits := by
    rw [roundUnits_zero]
    exact overflowUnits_pos
  rw [units_nearest below, roundUnits_zero]

theorem Magnitude.nearest_mono
    {smaller larger : Nat}
    (denominator : Nat)
    (order : smaller ≤ larger) :
    (nearest smaller denominator).units ≤ (nearest larger denominator).units := by
  have rounded := roundUnits_mono denominator order
  by_cases below : roundUnits larger denominator < overflowUnits
  · rw [units_nearest below, units_nearest (Nat.lt_of_le_of_lt rounded below)]
    exact rounded
  · rw [nearest.eq_def larger, dif_neg below]
    exact units_le_largest _

end

theorem mul_plus (negative : Bool) (size factor : Magnitude) :
    (finite negative size).mul (finite false factor) =
      ofUnits negative (size.units * factor.units) unitsPerOne := by
  rw [mul, Bool.bne_false]

theorem div_plus
    {factor : Magnitude}
    (negative : Bool)
    (size : Magnitude)
    (nonzero : factor.units ≠ 0) :
    (finite negative size).div (finite false factor) =
      ofUnits negative (size.units * unitsPerOne) factor.units := by
  rw [div, if_neg nonzero, Bool.bne_false]

/-! ## Powers of ten -/

/-- Is this number infinite or at least one? -/
def IsAtLeastOne (value : Binary64) : Prop :=
  value = infinite false ∨ ∃ size, value = finite false size ∧ unitsPerOne ≤ size.units

theorem isAtLeastOne_ofUnits
    {numerator denominator : Nat}
    (positive : 0 < denominator)
    (order : unitsPerOne * denominator ≤ numerator) :
    IsAtLeastOne (ofUnits false numerator denominator) := by
  by_cases below : roundUnits numerator denominator < overflowUnits
  · refine Or.inr ⟨_, ofUnits_eq_nearest false below, ?_⟩
    rw [Magnitude.units_nearest below]
    exact le_roundUnits_of_le positive spacing_dvd_unitsPerOne order
  · exact Or.inl (by rw [ofUnits, dif_neg below])

theorem isAtLeastOne_ofNat {value : Nat} (nonzero : value ≠ 0) : IsAtLeastOne (ofNat value) := by
  apply isAtLeastOne_ofUnits Nat.one_pos
  rw [Nat.mul_one]
  exact Nat.le_mul_of_pos_left _ (Nat.pos_of_ne_zero nonzero)

theorem IsAtLeastOne.mul
    {left right : Binary64}
    (leftLarge : left.IsAtLeastOne)
    (rightLarge : right.IsAtLeastOne) :
    (left.mul right).IsAtLeastOne := by
  have positive := unitsPerOne_pos
  rcases leftLarge with rfl | ⟨leftSize, rfl, leftOrder⟩
  · rcases rightLarge with rfl | ⟨rightSize, rfl, rightOrder⟩
    · exact Or.inl rfl
    · have nonzero : rightSize.units ≠ 0 := by omega
      exact Or.inl (by simp [Binary64.mul, nonzero])
  · rcases rightLarge with rfl | ⟨rightSize, rfl, rightOrder⟩
    · have nonzero : leftSize.units ≠ 0 := by omega
      exact Or.inl (by simp [Binary64.mul, nonzero])
    · exact isAtLeastOne_ofUnits positive (Nat.mul_le_mul leftOrder rightOrder)

theorem IsAtLeastOne.mulPower
    {result base : Binary64}
    (exponent : Nat)
    (resultLarge : result.IsAtLeastOne)
    (baseLarge : base.IsAtLeastOne) :
    (mulPower result base exponent).IsAtLeastOne := by
  induction exponent using Nat.strongRecOn generalizing result base with
  | ind exponent inductionHypothesis =>
      have next : IsAtLeastOne (if exponent % 2 = 1 then result.mul base else result) := by
        split
        · exact resultLarge.mul baseLarge
        · exact resultLarge
      rw [Binary64.mulPower]
      split
      · exact next
      · exact inductionHypothesis (exponent / 2) (by omega) next (baseLarge.mul baseLarge)

theorem isAtLeastOne_tenPower (exponent : Nat) : (tenPower exponent).IsAtLeastOne :=
  IsAtLeastOne.mulPower _ (isAtLeastOne_ofNat (by decide)) (isAtLeastOne_ofNat (by decide))

/-! ## Whole numbers -/

/-- The nearest whole number, halves away from zero. -/
def Magnitude.round (size : Magnitude) : Magnitude :=
  nearest ((size.units + unitsPerOne / 2) / unitsPerOne * unitsPerOne) 1

theorem round_largest :
    (Magnitude.largest.units + unitsPerOne / 2) / unitsPerOne * unitsPerOne =
      Magnitude.largest.units := by
  decide +kernel

theorem whole_mono {smaller larger : Nat} (order : smaller ≤ larger) :
    (smaller + unitsPerOne / 2) / unitsPerOne * unitsPerOne ≤
      (larger + unitsPerOne / 2) / unitsPerOne * unitsPerOne :=
  Nat.mul_le_mul_right _ (Nat.div_le_div_right (Nat.add_le_add_right order _))

theorem lt_overflowUnits_round (size : Magnitude) :
    roundUnits ((size.units + unitsPerOne / 2) / unitsPerOne * unitsPerOne) 1 < overflowUnits := by
  apply lt_overflowUnits_of_le Nat.one_pos
  rw [Nat.mul_one, ← round_largest]
  exact whole_mono size.units_le_largest

theorem round_finite (negative : Bool) (size : Magnitude) :
    (finite negative size).round = finite negative size.round :=
  ofUnits_eq_nearest negative (lt_overflowUnits_round size)

/-- Beyond 53 binary digits the rounding that ends every operation keeps whole numbers whole. -/
theorem Magnitude.unitsPerOne_dvd_round (size : Magnitude) : unitsPerOne ∣ size.round.units := by
  rw [round, units_nearest (lt_overflowUnits_round size)]
  exact unitsPerOne_dvd_roundUnits (Nat.dvd_mul_left _ _)

theorem Magnitude.round_mono {smaller larger : Magnitude} (order : smaller.units ≤ larger.units) :
    smaller.round.units ≤ larger.round.units :=
  nearest_mono 1 (whole_mono order)

/-! ## Decimal places -/

/-- Rounding to a number of decimal places, for one power of ten. -/
def Magnitude.scaledBy (factor size : Magnitude) : Magnitude :=
  if roundUnits (size.units * factor.units) unitsPerOne < overflowUnits then
    nearest ((nearest (size.units * factor.units) unitsPerOne).round.units * unitsPerOne)
      factor.units
  else
    size

/-- The nearest number with so many decimal places, as far as rounding finds it. -/
def Magnitude.toPrecision (size : Magnitude) (precision : Nat) : Magnitude :=
  match tenPower precision with
  | .finite _ factor => scaledBy factor size
  | _ => size

/-- What was rounded to a whole number is divided without overflow. -/
theorem lt_overflowUnits_div
    {factor : Magnitude}
    (large : unitsPerOne ≤ factor.units)
    (size : Magnitude) :
    roundUnits (size.units * unitsPerOne) factor.units < overflowUnits := by
  have positive := unitsPerOne_pos
  exact lt_overflowUnits_of_le (by omega) (Nat.mul_le_mul size.units_le_largest large)

theorem roundToPrecision_finite (negative : Bool) (size : Magnitude) (precision : Nat) :
    roundToPrecision (finite negative size) precision =
      finite negative (size.toPrecision precision) := by
  unfold roundToPrecision Magnitude.toPrecision
  simp only
  rcases isAtLeastOne_tenPower precision with infinity | ⟨factor, power, large⟩
  · rw [infinity]
    rfl
  · rw [power]
    simp only [Magnitude.scaledBy]
    by_cases below : roundUnits (size.units * factor.units) unitsPerOne < overflowUnits
    · have positive : 0 < factor.units := Nat.lt_of_lt_of_le unitsPerOne_pos large
      rw [if_pos below, mul_plus, ofUnits_eq_nearest negative below, round_finite,
        div_plus negative _ (Nat.ne_of_gt positive),
        ofUnits_eq_nearest negative (lt_overflowUnits_div large _)]
      rfl
    · rw [if_neg below, mul_plus, ofUnits, dif_neg below]
      rfl

theorem Magnitude.units_toPrecision_of_zero
    {size : Magnitude}
    (zero : size.units = 0)
    (precision : Nat) :
    (size.toPrecision precision).units = 0 := by
  have half : (0 + unitsPerOne / 2) / unitsPerOne * unitsPerOne = 0 := by decide +kernel
  unfold toPrecision
  split
  next factor _ =>
    unfold scaledBy
    split
    next =>
      rw [round, zero, Nat.zero_mul, units_nearest_zero, half, units_nearest_zero, Nat.zero_mul,
        units_nearest_zero]
    next => exact zero
  next => exact zero

/-- A product that overflows is beyond every size that is divided again, so a size that
is rounded stays below one that is returned as it is. -/
theorem Magnitude.scaledBy_mono
    {factor smaller larger : Magnitude}
    (large : unitsPerOne ≤ factor.units)
    (order : smaller.units ≤ larger.units) :
    (scaledBy factor smaller).units ≤ (scaledBy factor larger).units := by
  have positive : 0 < factor.units := Nat.lt_of_lt_of_le unitsPerOne_pos large
  have products : smaller.units * factor.units ≤ larger.units * factor.units :=
    Nat.mul_le_mul_right _ order
  have rounded := roundUnits_mono unitsPerOne products
  unfold scaledBy
  by_cases largerBelow : roundUnits (larger.units * factor.units) unitsPerOne < overflowUnits
  · rw [if_pos largerBelow, if_pos (Nat.lt_of_le_of_lt rounded largerBelow)]
    exact nearest_mono _ (Nat.mul_le_mul_right _ (round_mono (nearest_mono _ products)))
  · rw [if_neg largerBelow]
    by_cases smallerBelow : roundUnits (smaller.units * factor.units) unitsPerOne < overflowUnits
    · rw [if_pos smallerBelow, units_nearest (lt_overflowUnits_div large _)]
      have seam := lt_of_overflow unitsPerOne_pos (Nat.le_of_not_lt largerBelow)
      apply roundUnits_le_of_le positive larger.representable.2
      apply Nat.le_trans _ (Nat.le_of_lt seam)
      exact Nat.mul_le_mul_right _ (units_le_largest _)
    · rw [if_neg smallerBelow]
      exact order

theorem Magnitude.toPrecision_mono
    {smaller larger : Magnitude}
    (order : smaller.units ≤ larger.units)
    (precision : Nat) :
    (smaller.toPrecision precision).units ≤ (larger.toPrecision precision).units := by
  unfold toPrecision
  rcases isAtLeastOne_tenPower precision with infinity | ⟨factor, power, large⟩
  · rw [infinity]
    exact order
  · rw [power]
    exact scaledBy_mono large order

end CssRescale.Binary64
