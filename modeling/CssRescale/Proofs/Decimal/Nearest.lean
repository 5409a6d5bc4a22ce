import CssRescale.Decimal.Shortest
import CssRescale.Proofs.Binary64.Quotients

/-!
Contract: the number nearest to a decimal one is one rounded quotient.

Powers of ten far outside the range are answered without being computed. The answer is
the rounded quotient there too, so which decimal numbers read back as a magnitude is a
question about one rounding, whatever their power of ten.

Owns:
- conversion of decimal numbers without its shortcuts, and that it gives no NaN;
- that zeros may be counted in the digits or in the power of ten;
- whole numbers, and numbers between two that read back.
-/

set_option autoImplicit false

namespace CssRescale.Decimal

open Binary64 (Magnitude roundUnits unitsPerOne overflowUnits ofUnits)

/-! ## Shortcuts -/

theorem overflowUnits_le : overflowUnits ≤ 10 ^ exponentCeiling.toNat * unitsPerOne := by
  decide +kernel

theorem unitsPerOne_lt : 2 * unitsPerOne < 10 ^ exponentCeiling.toNat := by
  decide +kernel

theorem ofUnits_of_large
    {digits power : Nat}
    (negative : Bool)
    (nonzero : digits ≠ 0)
    (large : exponentCeiling.toNat ≤ power) :
    ofUnits negative (digits * 10 ^ power * unitsPerOne) 1 = .infinite negative := by
  have beyond : overflowUnits ≤ roundUnits (digits * 10 ^ power * unitsPerOne) 1 := by
    apply Binary64.overflow_of_le Nat.one_pos
    calc
      overflowUnits * 1 = overflowUnits := Nat.mul_one _
      _ ≤ 10 ^ exponentCeiling.toNat * unitsPerOne := overflowUnits_le
      _ ≤ digits * 10 ^ power * unitsPerOne := by
        apply Nat.mul_le_mul_right
        calc
          10 ^ exponentCeiling.toNat ≤ 10 ^ power := Nat.pow_le_pow_right (by decide) large
          _ ≤ digits * 10 ^ power := Nat.le_mul_of_pos_left _ (Nat.pos_of_ne_zero nonzero)
  rw [ofUnits, dif_neg (Nat.not_lt.mpr beyond)]

theorem ofUnits_of_small
    {digits places : Nat}
    (negative : Bool)
    (small : digits.log2 + 1 + exponentCeiling.toNat ≤ places) :
    ofUnits negative (digits * unitsPerOne) (10 ^ places) = Binary64.zero negative := by
  have bound : digits < 10 ^ (digits.log2 + 1) :=
    Nat.lt_of_lt_of_le Nat.lt_log2_self (Nat.pow_le_pow_left (by decide) _)
  have vanishes : roundUnits (digits * unitsPerOne) (10 ^ places) = 0 := by
    apply Binary64.roundUnits_eq_zero
    calc
      2 * (digits * unitsPerOne) = digits * (2 * unitsPerOne) := Nat.mul_left_comm _ _ _
      _ < 10 ^ (digits.log2 + 1) * 10 ^ exponentCeiling.toNat := Nat.mul_lt_mul'' bound unitsPerOne_lt
      _ = 10 ^ (digits.log2 + 1 + exponentCeiling.toNat) := (Nat.pow_add _ _ _).symm
      _ ≤ 10 ^ places := Nat.pow_le_pow_right (by decide) small
  exact Binary64.ofUnits_eq_finite negative vanishes

/-- The number nearest to a decimal one, without shortcuts. -/
theorem toBinary64_eq (negative : Bool) (number : Decimal) :
    number.toBinary64 negative =
      ofUnits negative (number.digits * 10 ^ number.exponent.toNat * unitsPerOne)
        (10 ^ (-number.exponent).toNat) := by
  have ceiling : 0 ≤ exponentCeiling := by decide
  unfold toBinary64
  split
  next none => rw [none, Nat.zero_mul, Nat.zero_mul, Binary64.ofUnits_zero]
  next nonzero =>
    split
    next large =>
      have whole : (-number.exponent).toNat = 0 := by omega
      rw [whole, Nat.pow_zero, ofUnits_of_large negative nonzero (by omega)]
    next =>
      split
      next small =>
        have fraction : number.exponent.toNat = 0 := by omega
        rw [fraction, Nat.pow_zero, Nat.mul_one, ofUnits_of_small negative (by omega)]
      next => rfl

/-- The number nearest to a decimal one is never NaN. -/
theorem isNan_toBinary64 (negative : Bool) (number : Decimal) :
    (number.toBinary64 negative).isNan = false := by
  rw [toBinary64_eq]
  unfold ofUnits
  split <;> rfl

/-! ## Reading back -/

theorem readsBack_iff {size : Magnitude} {number : Decimal} :
    readsBack size number = true ↔
      roundUnits (number.digits * 10 ^ number.exponent.toNat * unitsPerOne)
        (10 ^ (-number.exponent).toNat) = size.units := by
  rw [readsBack, beq_iff_eq, toBinary64_eq]
  exact ⟨fun reads => (Binary64.roundUnits_of_ofUnits reads).2, Binary64.ofUnits_eq_finite false⟩

/-- A zero behind the point may be dropped. -/
theorem readsBack_mul_ten
    {size : Magnitude}
    {digits : Nat}
    {exponent : Int}
    (fractional : exponent < 0) :
    readsBack size ⟨digits * 10, exponent⟩ = readsBack size ⟨digits, exponent + 1⟩ := by
  have places : (-exponent).toNat = (-(exponent + 1)).toNat + 1 := by omega
  have whole : exponent.toNat = 0 ∧ (exponent + 1).toNat = 0 := by omega
  have ten : 0 < 10 := by decide
  rw [Bool.eq_iff_iff, readsBack_iff, readsBack_iff]
  simp only [places, whole, Nat.pow_zero, Nat.mul_one, Nat.pow_succ, Nat.mul_right_comm _ 10,
    Binary64.roundUnits_mul_mul ten]

/-- A magnitude that is a whole number reads back from its digits. -/
theorem readsBack_whole
    {size : Magnitude}
    (whole : unitsPerOne ∣ size.units) :
    readsBack size ⟨size.units / unitsPerOne, 0⟩ = true := by
  rw [readsBack_iff]
  have kept := Binary64.roundUnits_mul Nat.one_pos size.representable.2
  rw [Nat.mul_one] at kept
  simpa [Nat.div_mul_cancel whole] using kept

end CssRescale.Decimal
