import CssRescale.Proofs.Binary64.Rounding

/-!
Contract: rounded quotients against the counts that are representable.

A quotient is rounded on the same side of every representable count that it stands on
itself, so bounds by such counts survive every rounding.

Owns:
- rounding does not depend on a factor that numerator and denominator have in common;
- bounds of rounded quotients by representable counts, and the largest of these;
- which quotients overflow, and which vanish;
- multiples of a power of two stay such multiples.
-/

set_option autoImplicit false

namespace CssRescale.Binary64

/-! ## Common factors -/

theorem nearestEven_mul_mul
    {factor : Nat}
    (positive : 0 < factor)
    (numerator denominator : Nat) :
    nearestEven (numerator * factor) (denominator * factor) = nearestEven numerator denominator := by
  have below : 2 * (numerator % denominator * factor) < denominator * factor ↔
      2 * (numerator % denominator) < denominator := by
    rw [← Nat.mul_assoc, Nat.mul_lt_mul_right positive]
  have above : denominator * factor < 2 * (numerator % denominator * factor) ↔
      denominator < 2 * (numerator % denominator) := by
    rw [← Nat.mul_assoc, Nat.mul_lt_mul_right positive]
  simp only [nearestEven, Nat.mul_div_mul_right _ _ positive, Nat.mul_mod_mul_right, below, above]

theorem roundUnits_mul_mul
    {factor : Nat}
    (positive : 0 < factor)
    (numerator denominator : Nat) :
    roundUnits (numerator * factor) (denominator * factor) = roundUnits numerator denominator := by
  simp only [roundUnits, Nat.mul_div_mul_right _ _ positive]
  rw [Nat.mul_right_comm, nearestEven_mul_mul positive]

/-- Quotients that round to the same count are the same number. -/
theorem ofUnits_congr
    {numerator denominator otherNumerator otherDenominator : Nat}
    (negative : Bool)
    (same : roundUnits numerator denominator = roundUnits otherNumerator otherDenominator) :
    ofUnits negative numerator denominator = ofUnits negative otherNumerator otherDenominator := by
  by_cases below : roundUnits otherNumerator otherDenominator < overflowUnits
  · rw [ofUnits.eq_def _ otherNumerator, dif_pos below]
    exact ofUnits_eq_finite negative same
  · have above : ¬roundUnits numerator denominator < overflowUnits := same ▸ below
    rw [ofUnits, dif_neg above, ofUnits, dif_neg below]

/-! ## Representable counts -/

/-- A significand of at most 53 binary digits may be multiplied by any power of two. -/
theorem spacing_dvd_of_lt
    {significand : Nat}
    (small : significand < 2 ^ 53)
    (power : Nat) :
    spacing (significand * 2 ^ power) ∣ significand * 2 ^ power := by
  by_cases zero : significand * 2 ^ power = 0
  · rw [zero]
    exact Nat.dvd_zero _
  · refine Nat.dvd_trans (Nat.pow_dvd_pow 2 ?_) (Nat.dvd_mul_left _ _)
    have : (significand * 2 ^ power).log2 < 53 + power := by
      rw [Nat.log2_lt zero, Nat.pow_add]
      exact Nat.mul_lt_mul_of_pos_right small (Nat.two_pow_pos _)
    omega

theorem spacing_dvd_two_pow (power : Nat) : spacing (2 ^ power) ∣ 2 ^ power := by
  have small : 1 < 2 ^ 53 := by decide
  have multiple := spacing_dvd_of_lt small power
  rw [Nat.one_mul] at multiple
  exact multiple

theorem spacing_dvd_unitsPerOne : spacing unitsPerOne ∣ unitsPerOne := by
  unfold unitsPerOne
  generalize 1074 = power
  exact spacing_dvd_two_pow power

theorem spacing_dvd_overflowUnits : spacing overflowUnits ∣ overflowUnits := by
  unfold overflowUnits
  generalize 2098 = power
  exact spacing_dvd_two_pow power

theorem unitsPerOne_pos : 0 < unitsPerOne := by
  simp only [unitsPerOne, Nat.two_pow_pos]

theorem mul_two_pow_le
    {significand power bound : Nat}
    (small : significand < 2 ^ 53)
    (order : power ≤ bound) :
    significand * 2 ^ power ≤ (2 ^ 53 - 1) * 2 ^ bound :=
  Nat.mul_le_mul (Nat.le_sub_one_of_lt small) (Nat.pow_le_pow_right (by decide) order)

theorem Magnitude.units_le_largest (size : Magnitude) : size.units ≤ largest.units := by
  obtain ⟨bounded, multiple⟩ := size.representable
  have power : size.units.log2 - 52 ≤ 2045 := by
    by_cases zero : size.units = 0
    · rw [zero, Nat.log2_zero]
      exact Nat.zero_le _
    · have : size.units.log2 < 2098 := by simpa only [overflowUnits, Nat.log2_lt zero] using bounded
      omega
  have product : size.units / spacing size.units * spacing size.units = size.units :=
    Nat.div_mul_cancel multiple
  rw [← product]
  simpa only [spacing, largest] using mul_two_pow_le (div_spacing_lt size.units) power

/-! ## Bounds -/

section

variable {numerator denominator units : Nat}

theorem roundUnits_le_of_le
    (positive : 0 < denominator)
    (multiple : spacing units ∣ units)
    (order : numerator ≤ units * denominator) :
    roundUnits numerator denominator ≤ units := by
  calc
    roundUnits numerator denominator ≤ roundUnits (units * denominator) denominator :=
      roundUnits_mono denominator order
    _ = units := roundUnits_mul positive multiple

theorem le_roundUnits_of_le
    (positive : 0 < denominator)
    (multiple : spacing units ∣ units)
    (order : units * denominator ≤ numerator) :
    units ≤ roundUnits numerator denominator := by
  calc
    units = roundUnits (units * denominator) denominator := (roundUnits_mul positive multiple).symm
    _ ≤ roundUnits numerator denominator := roundUnits_mono denominator order

/-- A quotient that overflows is beyond the largest finite number. -/
theorem lt_of_overflow
    (positive : 0 < denominator)
    (overflow : overflowUnits ≤ roundUnits numerator denominator) :
    Magnitude.largest.units * denominator < numerator := by
  rcases Nat.lt_or_ge (Magnitude.largest.units * denominator) numerator with above | order
  · exact above
  · have bounded := roundUnits_le_of_le positive Magnitude.largest.representable.2 order
    have finite := Magnitude.largest.representable.1
    omega

theorem overflow_of_le
    (positive : 0 < denominator)
    (order : overflowUnits * denominator ≤ numerator) :
    overflowUnits ≤ roundUnits numerator denominator :=
  le_roundUnits_of_le positive spacing_dvd_overflowUnits order

/-- A quotient below half a unit vanishes. -/
theorem roundUnits_eq_zero (small : 2 * numerator < denominator) :
    roundUnits numerator denominator = 0 := by
  have below : numerator < denominator := by omega
  have unit : spacing 0 = 1 := by decide
  simp only [roundUnits, nearestEven, Nat.div_eq_of_lt below, unit, Nat.mul_one,
    Nat.mod_eq_of_lt below, small, if_true]

end

theorem roundUnits_zero (denominator : Nat) : roundUnits 0 denominator = 0 := by
  simp [roundUnits, nearestEven]

theorem ofUnits_zero (negative : Bool) (denominator : Nat) :
    ofUnits negative 0 denominator = zero negative :=
  ofUnits_eq_finite negative (roundUnits_zero denominator)

theorem isFinite_ofUnits
    {numerator denominator : Nat}
    (negative : Bool)
    (below : roundUnits numerator denominator < overflowUnits) :
    (ofUnits negative numerator denominator).isFinite = true := by
  rw [ofUnits, dif_pos below]
  rfl

/-- Numbers of 64 bits are finite. -/
theorem isFinite_ofNat {value : Nat} (small : value ≤ 2 ^ 64) : (ofNat value).isFinite = true := by
  refine isFinite_ofUnits false (Nat.lt_of_not_le fun overflow => ?_)
  have bound : 2 ^ 64 * unitsPerOne ≤ Magnitude.largest.units := by decide +kernel
  have above := lt_of_overflow Nat.one_pos overflow
  rw [Nat.mul_one] at above
  exact absurd (Nat.le_trans (Nat.mul_le_mul_right _ small) bound) (Nat.not_le_of_lt above)

/-! ## Multiples of a power of two -/

/-- Where the spacing is coarser than the power it makes the multiple, and where it is
finer nothing is rounded. -/
theorem two_pow_dvd_roundUnits
    {power numerator : Nat}
    (multiple : 2 ^ power ∣ numerator) :
    2 ^ power ∣ roundUnits numerator 1 := by
  rcases Nat.le_total power (numerator.log2 - 52) with coarse | fine
  · have spaced : spacing numerator ∣ roundUnits numerator 1 := by
      rw [roundUnits, Nat.div_one]
      exact Nat.dvd_mul_left _ _
    exact Nat.dvd_trans (Nat.pow_dvd_pow 2 coarse) spaced
  · have kept : roundUnits (numerator * 1) 1 = numerator :=
      roundUnits_mul Nat.one_pos (Nat.dvd_trans (Nat.pow_dvd_pow 2 fine) multiple)
    rw [Nat.mul_one] at kept
    rw [kept]
    exact multiple

/-- Whole numbers are rounded to whole numbers. -/
theorem unitsPerOne_dvd_roundUnits {numerator : Nat} :
    unitsPerOne ∣ numerator → unitsPerOne ∣ roundUnits numerator 1 := by
  unfold unitsPerOne
  generalize 1074 = power
  exact two_pow_dvd_roundUnits

/-- A representable count beyond 53 binary digits is a whole number. -/
theorem unitsPerOne_dvd_of_le
    {units : Nat}
    (multiple : spacing units ∣ units) :
    2 ^ 53 * unitsPerOne ≤ units → unitsPerOne ∣ units := by
  unfold unitsPerOne
  generalize 1074 = power
  intro large
  refine Nat.dvd_trans (Nat.pow_dvd_pow 2 ?_) multiple
  have positive : units ≠ 0 := by
    have : 0 < 2 ^ 53 * 2 ^ power := Nat.mul_pos (by decide) (Nat.two_pow_pos power)
    omega
  rw [← Nat.pow_add, ← Nat.le_log2 positive] at large
  omega

end CssRescale.Binary64
