import CssRescale.Decimal.Shortest
import CssRescale.Proofs.Binary64.Rounding

/-!
Contract: the shortest decimal number of a magnitude reads back as it.

Every grid that is tried gives a number that reads back or none, and on the
finest grid every magnitude is a number of its own.
-/

set_option autoImplicit false

namespace CssRescale.Decimal

open Binary64 (Magnitude)

theorem readsBack_of_onGrid?
    {size : Magnitude}
    {exponent : Int}
    {number : Decimal}
    (found : onGrid? size exponent = some number) :
    readsBack size number = true := by
  unfold onGrid? at found
  simp only at found
  split at found
  next below above =>
    split at found
    · exact Option.some.inj found ▸ below
    · exact Option.some.inj found ▸ above
  next below _ => exact Option.some.inj found ▸ below
  next _ above => exact Option.some.inj found ▸ above
  next => cases found

theorem unitsPerOne_eq : Binary64.unitsPerOne = 2 ^ finestExponent := by
  simp only [Binary64.unitsPerOne, finestExponent]

theorem ten_pow (exponent : Nat) : 10 ^ exponent = 5 ^ exponent * 2 ^ exponent :=
  Nat.mul_pow 5 2 exponent

/-- The finest grid has every magnitude: its digits are the count of least units
times a power of five. -/
theorem digits_finest (size : Magnitude) :
    (lowerNeighbour size (-(finestExponent : Int))).digits = size.units * 5 ^ finestExponent := by
  have negated : (-(-(finestExponent : Int))).toNat = finestExponent := by omega
  have positive : (-(finestExponent : Int)).toNat = 0 := by omega
  simp only [lowerNeighbour, negated, positive, Nat.pow_zero, Nat.mul_one, unitsPerOne_eq, ten_pow]
  rw [← Nat.mul_assoc, Nat.mul_div_cancel _ (Nat.two_pow_pos _)]

theorem readsBack_finest (size : Magnitude) :
    readsBack size (lowerNeighbour size (-(finestExponent : Int))) = true := by
  have digits := digits_finest size
  have exponent : (lowerNeighbour size (-(finestExponent : Int))).exponent =
      -(finestExponent : Int) := rfl
  generalize lowerNeighbour size (-(finestExponent : Int)) = number at digits exponent ⊢
  rw [readsBack, beq_iff_eq]
  unfold toBinary64
  rw [digits, exponent]
  by_cases zero : size.units = 0
  · rw [zero, Nat.zero_mul, if_pos rfl, Binary64.zero, Binary64.finite.injEq]
    exact ⟨rfl, Binary64.Magnitude.eq_of_units zero.symm⟩
  · have positive : 0 < size.units * 5 ^ finestExponent :=
      Nat.mul_pos (Nat.pos_of_ne_zero zero) (Nat.pow_pos (by decide))
    have log : finestExponent ≤ (size.units * 5 ^ finestExponent).log2 := by
      rw [Nat.le_log2 (Nat.ne_of_gt positive)]
      calc
        2 ^ finestExponent ≤ 5 ^ finestExponent := Nat.pow_le_pow_left (by decide) _
        _ ≤ size.units * 5 ^ finestExponent := Nat.le_mul_of_pos_left _ (Nat.pos_of_ne_zero zero)
    have notLarge : ¬exponentCeiling < -(finestExponent : Int) := by decide
    have notSmall : ¬-(finestExponent : Int) + (size.units * 5 ^ finestExponent).log2 + 1 <
        -exponentCeiling := by
      have ceiling : 0 ≤ exponentCeiling := by decide
      omega
    rw [if_neg (Nat.ne_of_gt positive), if_neg notLarge, if_neg notSmall]
    apply Binary64.ofUnits_eq_finite false
    have negated : (-(-(finestExponent : Int))).toNat = finestExponent := by omega
    have whole : (-(finestExponent : Int)).toNat = 0 := by omega
    rw [negated, whole, Nat.pow_zero, Nat.mul_one, unitsPerOne_eq, Nat.mul_assoc, ← ten_pow]
    exact Binary64.roundUnits_mul (Nat.pow_pos (by decide)) size.representable.2

theorem readsBack_shortest (size : Magnitude) : readsBack size (shortest size) = true := by
  unfold shortest
  cases found : (exponentsFrom (wholeDigitCount size)).findSome? (onGrid? size) with
  | none => exact readsBack_finest size
  | some number =>
      obtain ⟨exponent, _, here⟩ := List.exists_of_findSome?_eq_some found
      exact readsBack_of_onGrid? here

end CssRescale.Decimal
