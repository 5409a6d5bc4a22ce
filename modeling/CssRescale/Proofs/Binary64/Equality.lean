import CssRescale.Proofs.Binary64.Sign

/-!
Contract: equality of numbers, in which both zeros are one number and NaN is none.

Owns:
- equality as a partial equivalence;
- that it does not tell numbers apart that become equal when infinities turn into
  the largest finite numbers, if they were equal before.
-/

set_option autoImplicit false

namespace CssRescale.Binary64

theorem equal_self {value : Binary64} (number : value.isNan = false) : equal value value = true := by
  simp [equal, number]

theorem equal_comm (left right : Binary64) : equal left right = equal right left := by
  rw [Bool.eq_iff_iff]
  simp only [equal, Bool.and_eq_true, beq_iff_eq]
  constructor
  · rintro ⟨⟨leftNumber, rightNumber⟩, rank⟩
    exact ⟨⟨rightNumber, leftNumber⟩, rank.symm⟩
  · rintro ⟨⟨rightNumber, leftNumber⟩, rank⟩
    exact ⟨⟨leftNumber, rightNumber⟩, rank.symm⟩

/-- Equal numbers are equal to the same numbers. -/
theorem equal_congr_right
    {left right : Binary64}
    (same : equal left right = true)
    (other : Binary64) :
    equal other left = equal other right := by
  simp only [equal, Bool.and_eq_true, Bool.not_eq_true', beq_iff_eq] at same
  obtain ⟨⟨leftNumber, rightNumber⟩, rank⟩ := same
  simp only [equal, leftNumber, rightNumber, rank]

/-! ## Infinities as largest numbers -/

theorem isNan_saturate (value : Binary64) : value.saturate.isNan = value.isNan := by
  cases value <;> rfl

@[simp]
theorem saturate_saturate (value : Binary64) : value.saturate.saturate = value.saturate := by
  cases value <;> rfl

theorem rank_infinite_ne (leftNegative negative : Bool) (size : Magnitude) :
    rank (infinite leftNegative) ≠ rank (finite negative size) := by
  have bounded := size.representable.1
  cases leftNegative with
  | false =>
      cases negative with
      | false =>
          rw [rank_infinite_plus, rank_finite_plus]
          omega
      | true =>
          rw [rank_infinite_plus, rank_finite_minus]
          omega
  | true =>
      cases negative with
      | false =>
          rw [rank_infinite_minus, rank_finite_plus]
          omega
      | true =>
          rw [rank_infinite_minus, rank_finite_minus]
          omega

theorem rank_infinite_injective {leftNegative negative : Bool}
    (same : rank (infinite leftNegative) = rank (infinite negative)) :
    leftNegative = negative := by
  have positive := overflowUnits_pos
  cases leftNegative with
  | false =>
      cases negative with
      | false => rfl
      | true =>
          rw [rank_infinite_plus, rank_infinite_minus] at same
          omega
  | true =>
      cases negative with
      | false =>
          rw [rank_infinite_plus, rank_infinite_minus] at same
          omega
      | true => rfl

theorem rank_saturate_eq
    {left right : Binary64}
    (leftNumber : left.isNan = false)
    (rightNumber : right.isNan = false)
    (same : left.rank = right.rank) :
    left.saturate.rank = right.saturate.rank := by
  cases left with
  | nan => cases leftNumber
  | infinite leftNegative =>
      cases right with
      | nan => cases rightNumber
      | finite negative size => exact absurd same (rank_infinite_ne leftNegative negative size)
      | infinite negative => rw [rank_infinite_injective same]
  | finite leftNegative leftSize =>
      cases right with
      | nan => cases rightNumber
      | infinite negative =>
          exact absurd same.symm (rank_infinite_ne negative leftNegative leftSize)
      | finite => exact same

theorem equal_saturate
    {left right : Binary64}
    (same : equal left right = true) :
    equal left.saturate right.saturate = true := by
  simp only [equal, Bool.and_eq_true, Bool.not_eq_true', beq_iff_eq, isNan_saturate] at same ⊢
  obtain ⟨⟨leftNumber, rightNumber⟩, rank⟩ := same
  exact ⟨⟨leftNumber, rightNumber⟩, rank_saturate_eq leftNumber rightNumber rank⟩

end CssRescale.Binary64
