import CssRescale.Binary64.Arithmetic

/-!
Contract: the rounding that every operation ends in.

Owns:
- representable counts round to themselves;
- rounding keeps the order of quotients with one denominator.
-/

set_option autoImplicit false

namespace CssRescale.Binary64

/-! ## Whole numbers -/

theorem spacing_pos (units : Nat) : 0 < spacing units := Nat.two_pow_pos _

theorem le_nearestEven (numerator denominator : Nat) :
    numerator / denominator ≤ nearestEven numerator denominator := by
  unfold nearestEven
  simp only
  split
  · exact Nat.le_refl _
  · split <;> omega

theorem nearestEven_mul
    {denominator : Nat}
    (positive : 0 < denominator)
    (quotient : Nat) :
    nearestEven (quotient * denominator) denominator = quotient := by
  have exact_quotient : quotient * denominator / denominator = quotient :=
    Nat.mul_div_cancel quotient positive
  have noRemainder : quotient * denominator % denominator = 0 := Nat.mul_mod_left _ _
  unfold nearestEven
  simp only [exact_quotient, noRemainder, Nat.mul_zero, positive, if_true]

theorem nearestEven_mono
    {smaller larger : Nat}
    (denominator : Nat)
    (order : smaller ≤ larger) :
    nearestEven smaller denominator ≤ nearestEven larger denominator := by
  have quotients : smaller / denominator ≤ larger / denominator := Nat.div_le_div_right order
  rcases Nat.lt_or_eq_of_le quotients with apart | same
  · have upper := nearestEven_le smaller denominator
    have lower := le_nearestEven larger denominator
    omega
  · have splitSmaller := Nat.div_add_mod smaller denominator
    have splitLarger := Nat.div_add_mod larger denominator
    rw [same] at splitSmaller
    have remainders : smaller % denominator ≤ larger % denominator := by omega
    unfold nearestEven
    simp only [same]
    split
    · split
      · exact Nat.le_refl _
      · split <;> omega
    · split
      · have : ¬2 * (larger % denominator) < denominator := by omega
        have : denominator < 2 * (larger % denominator) := by omega
        simp [*]
      · split
        · omega
        · split <;> omega

/-! ## Counts of least units -/

/-- A representable count is rounded to itself. -/
theorem roundUnits_mul
    {units denominator : Nat}
    (positive : 0 < denominator)
    (multiple : spacing units ∣ units) :
    roundUnits (units * denominator) denominator = units := by
  obtain ⟨significand, product⟩ := multiple
  have quotient : units * denominator / denominator = units := Nat.mul_div_cancel units positive
  unfold roundUnits
  simp only [quotient]
  have split : units * denominator = significand * (denominator * spacing units) := by
    calc
      units * denominator = spacing units * significand * denominator := by rw [← product]
      _ = significand * (denominator * spacing units) := by
        rw [Nat.mul_comm (spacing units), Nat.mul_assoc, Nat.mul_comm (spacing units)]
  rw [split, nearestEven_mul (Nat.mul_pos positive (spacing_pos units)), Nat.mul_comm, ← product]

theorem roundUnits_le (numerator denominator : Nat) :
    roundUnits numerator denominator ≤ 2 ^ ((numerator / denominator).log2 + 1) := by
  have upper := nearestEven_le numerator (denominator * spacing (numerator / denominator))
  rw [← Nat.div_div_eq_div_mul] at upper
  unfold roundUnits
  simp only
  generalize numerator / denominator = quotient at upper ⊢
  generalize nearestEven numerator (denominator * spacing quotient) = significand at upper ⊢
  rcases Nat.lt_or_ge quotient.log2 52 with small | large
  · have unit : spacing quotient = 1 := by
      rw [spacing, Nat.sub_eq_zero_of_le (Nat.le_of_lt small), Nat.pow_zero]
    rw [unit, Nat.div_one] at upper
    rw [unit, Nat.mul_one]
    exact Nat.le_trans upper Nat.lt_log2_self
  · have bound : significand ≤ 2 ^ 53 := Nat.le_trans upper (div_spacing_lt quotient)
    calc
      significand * spacing quotient ≤ 2 ^ 53 * spacing quotient := Nat.mul_le_mul_right _ bound
      _ = 2 ^ (quotient.log2 + 1) := by
        rw [spacing, ← Nat.pow_add]
        congr 1
        omega

theorem le_roundUnits
    {numerator denominator : Nat}
    (nonzero : numerator / denominator ≠ 0) :
    2 ^ (numerator / denominator).log2 ≤ roundUnits numerator denominator := by
  have lower := le_nearestEven numerator (denominator * spacing (numerator / denominator))
  rw [← Nat.div_div_eq_div_mul] at lower
  unfold roundUnits
  simp only
  generalize numerator / denominator = quotient at lower nonzero ⊢
  generalize nearestEven numerator (denominator * spacing quotient) = significand at lower ⊢
  have power : 2 ^ quotient.log2 = 2 ^ (quotient.log2 - (quotient.log2 - 52)) * spacing quotient := by
    rw [spacing, ← Nat.pow_add]
    congr 1
    omega
  have below : 2 ^ (quotient.log2 - (quotient.log2 - 52)) ≤ quotient / spacing quotient := by
    rw [Nat.le_div_iff_mul_le (spacing_pos quotient), ← power]
    exact Nat.log2_self_le nonzero
  rw [power]
  exact Nat.mul_le_mul_right _ (Nat.le_trans below lower)

theorem log2_mono {smaller larger : Nat} (order : smaller ≤ larger) :
    smaller.log2 ≤ larger.log2 := by
  by_cases zero : smaller = 0
  · rw [zero, Nat.log2_zero]
    exact Nat.zero_le _
  · rw [Nat.le_log2 (by omega)]
    exact Nat.le_trans (Nat.log2_self_le zero) order

theorem roundUnits_mono
    {smaller larger : Nat}
    (denominator : Nat)
    (order : smaller ≤ larger) :
    roundUnits smaller denominator ≤ roundUnits larger denominator := by
  have quotients : smaller / denominator ≤ larger / denominator := Nat.div_le_div_right order
  rcases Nat.lt_or_eq_of_le (log2_mono quotients) with apart | same
  · have nonzero : larger / denominator ≠ 0 := by
      intro zero
      rw [zero] at apart
      exact absurd apart (Nat.not_lt_zero _)
    calc
      roundUnits smaller denominator ≤ 2 ^ ((smaller / denominator).log2 + 1) :=
        roundUnits_le smaller denominator
      _ ≤ 2 ^ (larger / denominator).log2 := Nat.pow_le_pow_right (by decide) apart
      _ ≤ roundUnits larger denominator := le_roundUnits nonzero
  · have steps : spacing (smaller / denominator) = spacing (larger / denominator) := by
      rw [spacing, spacing, same]
    unfold roundUnits
    simp only [steps]
    exact Nat.mul_le_mul_right _ (nearestEven_mono _ order)

/-! ## Rounded numbers -/

theorem Magnitude.eq_of_units {left right : Magnitude} (same : left.units = right.units) :
    left = right := by
  cases left
  cases right
  simpa using same

theorem ofUnits_eq_finite
    {numerator denominator : Nat}
    {size : Magnitude}
    (negative : Bool)
    (rounds : roundUnits numerator denominator = size.units) :
    ofUnits negative numerator denominator = finite negative size := by
  have below : roundUnits numerator denominator < overflowUnits := rounds ▸ size.representable.1
  rw [ofUnits, dif_pos below, Binary64.finite.injEq]
  exact ⟨rfl, Magnitude.eq_of_units rounds⟩

theorem roundUnits_of_ofUnits
    {numerator denominator : Nat}
    {size : Magnitude}
    {negative sign : Bool}
    (rounded : ofUnits negative numerator denominator = finite sign size) :
    sign = negative ∧ roundUnits numerator denominator = size.units := by
  unfold ofUnits at rounded
  split at rounded
  · rw [Binary64.finite.injEq] at rounded
    exact ⟨rounded.1.symm, congrArg Magnitude.units rounded.2⟩
  · cases rounded

end CssRescale.Binary64
