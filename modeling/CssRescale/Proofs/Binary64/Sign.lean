import CssRescale.Proofs.Binary64.Rounding

/-!
Contract: the signs of numbers.

Owns: the sign of every number, zeros included, its size without the sign, and the place
that both give it in the order of numbers.
-/

set_option autoImplicit false

namespace CssRescale.Binary64

/-- The sign of a number; NaN has none. -/
def isMinus : Binary64 → Bool
  | nan => false
  | infinite negative => negative
  | finite negative _ => negative

@[simp]
theorem isMinus_ofUnits (negative : Bool) (numerator denominator : Nat) :
    (ofUnits negative numerator denominator).isMinus = negative := by
  unfold ofUnits
  split <;> rfl

theorem isNan_eq_false_of_isFinite {value : Binary64} (finite : value.isFinite = true) :
    value.isNan = false := by
  cases value with
  | nan => cases finite
  | _ => rfl

theorem exists_finite {value : Binary64} (isFinite : value.isFinite = true) :
    ∃ negative size, value = finite negative size := by
  cases value with
  | finite negative size => exact ⟨negative, size, rfl⟩
  | _ => cases isFinite

/-! ## Signs and order -/

theorem overflowUnits_pos : 0 < overflowUnits := Magnitude.zero.representable.1

@[simp]
theorem rank_finite_plus (size : Magnitude) : rank (finite false size) = size.units := rfl

@[simp]
theorem rank_finite_minus (size : Magnitude) : rank (finite true size) = -(size.units : Int) := rfl

/-- The size of a number without its sign, in least units. -/
def sizeUnits : Binary64 → Nat
  | nan => 0
  | infinite _ => overflowUnits
  | finite _ size => size.units

theorem rank_eq (value : Binary64) : value.rank = signed value.isMinus value.sizeUnits := by
  cases value <;> rfl

theorem rank_infinite_plus : rank (infinite false) = (overflowUnits : Int) := rfl

theorem rank_infinite_minus : rank (infinite true) = -(overflowUnits : Int) := rfl

@[simp]
theorem rank_zero (negative : Bool) : rank (zero negative) = 0 := by cases negative <;> rfl

theorem isMinus_of_below_zero
    {value : Binary64}
    (below : below value (zero false) = true) :
    value.isMinus = true := by
  simp only [Binary64.below, rank_zero, Bool.and_eq_true, decide_eq_true_eq] at below
  obtain ⟨_, negativeRank⟩ := below
  cases value with
  | nan => exact absurd negativeRank (by decide)
  | infinite negative =>
      cases negative with
      | true => rfl
      | false =>
          rw [rank_infinite_plus] at negativeRank
          omega
  | finite negative size =>
      cases negative with
      | true => rfl
      | false =>
          rw [rank_finite_plus] at negativeRank
          omega

theorem isZero_of_nonnegative
    {value : Binary64}
    (nonnegative : atMost (zero false) value = true)
    (minus : value.isMinus = true) :
    value.isZero = true := by
  simp only [atMost, rank_zero, Bool.and_eq_true, decide_eq_true_eq] at nonnegative
  obtain ⟨_, rank⟩ := nonnegative
  cases value with
  | nan => cases minus
  | infinite negative =>
      obtain rfl : negative = true := minus
      have positive := overflowUnits_pos
      rw [rank_infinite_minus] at rank
      omega
  | finite negative size =>
      obtain rfl : negative = true := minus
      rw [rank_finite_minus] at rank
      have none : size.units = 0 := by omega
      simp [isZero, none]

end CssRescale.Binary64
