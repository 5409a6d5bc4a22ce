import CssRescale.Proofs.Convert.Size

/-!
Contract: converted sizes stand in the order of the measurements.

Conversion acts on magnitudes and leaves the sign, so it is odd. On magnitudes it keeps
the order in each of its steps; zero stays zero, so the halves on both sides of it fit.

Owns: the order of converted magnitudes, and the law for all numbers.
-/

set_option autoImplicit false

namespace CssRescale

open Binary64 (Magnitude atMost signed)

namespace Binary64

/-! ## Opposite numbers -/

@[simp]
theorem isNan_neg (value : Binary64) : value.neg.isNan = value.isNan := by
  cases value <;> rfl

theorem isMinus_neg {value : Binary64} (number : value.isNan = false) :
    value.neg.isMinus = !value.isMinus := by
  cases value with
  | nan => cases number
  | _ => rfl

theorem Magnitude.quotient_neg (base : Magnitude) (value : Binary64) :
    base.quotient value.neg = base.quotient value := by
  cases value <;> rfl

/-! ## Order -/

theorem isZero_of_sizeUnits
    {value : Binary64}
    (number : value.isNan = false)
    (zero : value.sizeUnits = 0) :
    value.isZero = true := by
  have positive := overflowUnits_pos
  cases value with
  | nan => cases number
  | infinite negative => exact absurd zero (Nat.ne_of_gt positive)
  | finite negative size => exact beq_iff_eq.mpr zero

theorem Magnitude.quotient_mono
    {smaller larger : Binary64}
    (base : Magnitude)
    (number : larger.isNan = false)
    (order : smaller.sizeUnits ≤ larger.sizeUnits)
    (smallerNumber : smaller.isNan = false) :
    (base.quotient smaller).units ≤ (base.quotient larger).units := by
  cases larger with
  | nan => cases number
  | infinite => exact units_le_largest _
  | finite negative size =>
      cases smaller with
      | nan => cases smallerNumber
      | infinite =>
          have bounded := size.representable.1
          exact absurd order (Nat.not_le.mpr bounded)
      | finite => exact nearest_mono _ (Nat.mul_le_mul_right _ order)

/-- What keeps the order of sizes and takes zero to zero keeps the order of numbers. -/
theorem signed_le_signed
    {leftNegative rightNegative : Bool}
    {left right newLeft newRight : Nat}
    (order : signed leftNegative left ≤ signed rightNegative right)
    (upwards : left ≤ right → newLeft ≤ newRight)
    (downwards : right ≤ left → newRight ≤ newLeft)
    (leftZero : left = 0 → newLeft = 0)
    (rightZero : right = 0 → newRight = 0) :
    signed leftNegative newLeft ≤ signed rightNegative newRight := by
  cases leftNegative with
  | false =>
      cases rightNegative with
      | false =>
          simp only [signed, Bool.false_eq_true, if_false] at order ⊢
          omega
      | true =>
          simp only [signed, Bool.false_eq_true, if_false, if_true] at order ⊢
          omega
  | true =>
      cases rightNegative with
      | false =>
          simp only [signed, Bool.false_eq_true, if_false, if_true]
          omega
      | true =>
          simp only [signed, if_true] at order ⊢
          omega

end Binary64

namespace Rules

theorem convertedSize_mono
    {smaller larger : Binary64}
    (rules : Rules)
    (smallerNumber : smaller.isNan = false)
    (largerNumber : larger.isNan = false)
    (order : smaller.sizeUnits ≤ larger.sizeUnits) :
    (rules.convertedSize smaller).units ≤ (rules.convertedSize larger).units :=
  Magnitude.toPrecision_mono (Magnitude.quotient_mono _ largerNumber order smallerNumber) _

/-- The converted size is an odd function of the measurement that keeps the order, for
every precision: where the quotient is saturated, where the power of ten is infinite, and
between sizes that are rounded and those that are too large for it. -/
theorem convertSize_odd_mono (rules : Rules) (left right : Binary64) :
    rules.convertSize left.neg = (rules.convertSize left).neg ∧
      (atMost left right = true →
        atMost (rules.convertSize left) (rules.convertSize right) = true) := by
  constructor
  · cases number : left.isNan with
    | false =>
        rw [rules.convertSize_eq number, rules.convertSize_eq (by rw [left.isNan_neg, number]),
          Binary64.isMinus_neg number, convertedSize, convertedSize, Magnitude.quotient_neg]
        rfl
    | true =>
        cases left with
        | nan => rw [Binary64.neg, rules.convertSize_nan, Binary64.neg]
        | _ => cases number
  · intro order
    simp only [atMost, Bool.and_eq_true, Bool.not_eq_true', decide_eq_true_eq] at order
    obtain ⟨⟨leftNumber, rightNumber⟩, order⟩ := order
    rw [rules.convertSize_eq leftNumber, rules.convertSize_eq rightNumber]
    have kept : Binary64.rank (.finite left.isMinus (rules.convertedSize left)) ≤
        Binary64.rank (.finite right.isMinus (rules.convertedSize right)) := by
      rw [left.rank_eq, right.rank_eq] at order
      exact Binary64.signed_le_signed order
        (rules.convertedSize_mono leftNumber rightNumber)
        (rules.convertedSize_mono rightNumber leftNumber)
        (fun zero => rules.units_convertedSize_of_isZero (Binary64.isZero_of_sizeUnits leftNumber zero))
        (fun zero => rules.units_convertedSize_of_isZero (Binary64.isZero_of_sizeUnits rightNumber zero))
    simpa [atMost, Binary64.isNan] using kept

/-- To 300 decimal places, the first of these quotients is rounded and the second one is
too large for it. -/
theorem convertSize_odd_mono_seam :
    atMost (.ofNat 4314000000) (.ofNat 4315000000) = true ∧
      ((Binary64.ofNat 179750000).mul (.tenPower 300)).isFinite = true ∧
      ((Binary64.ofNat 179791666).mul (.tenPower 300)).isFinite = false ∧
      atMost
          (convertSize { default with precision := 300, precision_le := by decide }
            (.ofNat 4314000000))
          (convertSize { default with precision := 300, precision_le := by decide }
            (.ofNat 4315000000)) =
        true := by
  have order : atMost (.ofNat 4314000000) (.ofNat 4315000000) = true := by decide +kernel
  refine ⟨order, by decide +kernel, by decide +kernel, ?_⟩
  exact (convertSize_odd_mono { default with precision := 300, precision_le := by decide }
    (.ofNat 4314000000) (.ofNat 4315000000)).2 order

end Rules

end CssRescale
