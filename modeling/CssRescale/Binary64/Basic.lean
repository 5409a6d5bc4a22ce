/-!
Contract: double-precision numbers as exact naturals, and the one rounding
every operation ends in.

A finite number is a sign and a whole number of least units, the unit being
`2 ^ -1074`. Which counts are representable is a property of the count alone,
so equality of finite numbers is equality of sign and count.

Owns:
- the type `Binary64` with NaN, the infinities and both zeros;
- rounding a quotient of naturals to the nearest representable count, ties to
  the even significand;
- the fact that what is rounded is representable.

Does not own: arithmetic, bit patterns, decimal text.
-/

set_option autoImplicit false

-- Powers mean the same here whether or not powers in monoids are in scope too.
attribute [default_instance 20000, instance (2000)] instPowNat

namespace CssRescale

namespace Binary64

/-- The number one, counted in least units. -/
def unitsPerOne : Nat := 2 ^ 1074

/-- The first power of two beyond every finite number, counted in least units. -/
def overflowUnits : Nat := 2 ^ 2098

/-- A count of least units is a finite number exactly when it is below the
overflow bound and its significand has at most 53 binary digits. -/
def Representable (units : Nat) : Prop :=
  units < overflowUnits ∧ 2 ^ (units.log2 - 52) ∣ units

instance : DecidablePred Representable := fun units =>
  inferInstanceAs (Decidable (units < overflowUnits ∧ 2 ^ (units.log2 - 52) ∣ units))

/-- The size of a finite number. -/
structure Magnitude where
  units : Nat
  representable : Representable units
deriving DecidableEq

def Magnitude.zero : Magnitude := ⟨0, by decide +kernel⟩

def Magnitude.largest : Magnitude := ⟨(2 ^ 53 - 1) * 2 ^ 2045, by decide +kernel⟩

end Binary64

/-- A double-precision number. -/
inductive Binary64 where
  | nan
  | infinite (negative : Bool)
  | finite (negative : Bool) (size : Binary64.Magnitude)
deriving DecidableEq

namespace Binary64

/-- The whole number nearest to a quotient; halfway cases go to the even one. -/
def nearestEven (numerator denominator : Nat) : Nat :=
  let below := numerator / denominator
  let remainder := numerator % denominator
  if 2 * remainder < denominator then below
  else if denominator < 2 * remainder then below + 1
  else below + below % 2

/-- The spacing of representable counts around a count. -/
def spacing (units : Nat) : Nat := 2 ^ (units.log2 - 52)

/-- The quotient, a number of least units, rounded to a multiple of the spacing there. -/
def roundUnits (numerator denominator : Nat) : Nat :=
  let step := spacing (numerator / denominator)
  nearestEven numerator (denominator * step) * step

theorem nearestEven_le (numerator denominator : Nat) :
    nearestEven numerator denominator ≤ numerator / denominator + 1 := by
  unfold nearestEven
  simp only
  split
  · exact Nat.le_succ _
  · split
    · exact Nat.le_refl _
    · have : numerator / denominator % 2 < 2 := Nat.mod_lt _ (by decide)
      omega

/-- What is left after dividing by the spacing has at most 53 binary digits. -/
theorem div_spacing_lt (units : Nat) : units / spacing units < 2 ^ 53 := by
  unfold spacing
  rw [Nat.div_lt_iff_lt_mul (Nat.two_pow_pos _), ← Nat.pow_add]
  apply Nat.lt_of_lt_of_le Nat.lt_log2_self
  exact Nat.pow_le_pow_right (by decide) (by omega)

/-- A rounded count is a multiple of the spacing around itself. -/
theorem spacing_dvd_roundUnits (numerator denominator : Nat) :
    2 ^ ((roundUnits numerator denominator).log2 - 52) ∣ roundUnits numerator denominator := by
  have bound : nearestEven numerator (denominator * spacing (numerator / denominator)) ≤ 2 ^ 53 := by
    apply Nat.le_trans (nearestEven_le _ _)
    rw [← Nat.div_div_eq_div_mul]
    exact div_spacing_lt _
  have unfolded : roundUnits numerator denominator
      = nearestEven numerator (denominator * spacing (numerator / denominator))
        * 2 ^ ((numerator / denominator).log2 - 52) := rfl
  rw [unfolded]
  generalize nearestEven numerator (denominator * spacing (numerator / denominator)) = significand
    at bound
  generalize (numerator / denominator).log2 - 52 = exponent
  rcases Nat.lt_or_ge significand (2 ^ 53) with below | above
  · by_cases zero : significand * 2 ^ exponent = 0
    · rw [zero]
      exact Nat.dvd_zero _
    · refine Nat.dvd_trans (Nat.pow_dvd_pow 2 ?_) (Nat.dvd_mul_left _ _)
      have : (significand * 2 ^ exponent).log2 < 53 + exponent := by
        rw [Nat.log2_lt zero, Nat.pow_add]
        exact Nat.mul_lt_mul_of_pos_right below (Nat.two_pow_pos _)
      omega
  · have full : significand = 2 ^ 53 := Nat.le_antisymm bound above
    rw [full, ← Nat.pow_add, Nat.log2_two_pow]
    exact Nat.pow_dvd_pow 2 (by omega)

/-- The number nearest to a quotient of naturals counted in least units, with
the given sign; what rounds beyond the largest finite number is infinite. -/
def ofUnits (negative : Bool) (numerator denominator : Nat) : Binary64 :=
  if below : roundUnits numerator denominator < overflowUnits then
    finite negative ⟨roundUnits numerator denominator, below, spacing_dvd_roundUnits _ _⟩
  else
    infinite negative

def zero (negative : Bool) : Binary64 := finite negative Magnitude.zero

/-- The number of the given natural value. -/
def ofNat (value : Nat) : Binary64 := ofUnits false (value * unitsPerOne) 1

/-- Is this one of the numbers that equal no number? -/
def isNan : Binary64 → Bool
  | nan => true
  | _ => false

def isFinite : Binary64 → Bool
  | finite _ _ => true
  | _ => false

def isZero : Binary64 → Bool
  | finite _ size => size.units == 0
  | _ => false

end Binary64

end CssRescale
