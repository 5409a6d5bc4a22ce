import CssRescale.Proofs.Decimal.Grids
import CssRescale.Proofs.Decimal.Written

/-!
Contract: the layout of written numbers.

    number   = "-"? whole fraction
    whole    = "0" | (digit other than "0") digit*
    fraction = nothing | "." digit* (digit other than "0")

Owns:
- the grammar, as predicates on texts, and that numbers are written by it, zero without
  a sign;
- the number of decimal places of a text, and how many a number is written with at most.
-/

set_option autoImplicit false

namespace CssRescale

open Text (IsDigits)

/-! ## The grammar -/

namespace Text

inductive IsWholePart : Text → Prop where
  | zero : IsWholePart ['0']
  | positive {first : Char} {rest : Text}
      (digit : first.isDigit = true)
      (nonzero : first ≠ '0')
      (digits : IsDigits rest) :
      IsWholePart (first :: rest)

inductive IsFractionPart : Text → Prop where
  | nothing : IsFractionPart []
  | places {digits : Text} {last : Char}
      (digits_valid : IsDigits digits)
      (digit : last.isDigit = true)
      (nonzero : last ≠ '0') :
      IsFractionPart ('.' :: (digits ++ [last]))

/-- A number without superfluous zeros, sign or point. -/
inductive IsPlainNumber : Text → Prop where
  | plus {whole fraction : Text}
      (isWhole : IsWholePart whole)
      (isFraction : IsFractionPart fraction) :
      IsPlainNumber (whole ++ fraction)
  | minus {whole fraction : Text}
      (isWhole : IsWholePart whole)
      (isFraction : IsFractionPart fraction) :
      IsPlainNumber ('-' :: (whole ++ fraction))

/-- The number of characters behind the first point. -/
def decimalPlaces (text : Text) : Nat := ((text.dropWhile (· != '.')).drop 1).length

theorem decimalPlaces_append
    {front : Text}
    (noPoint : '.' ∉ front)
    (rest : Text) :
    decimalPlaces (front ++ rest) = decimalPlaces rest := by
  have passed : ∀ c ∈ front, (c != '.') = true := by
    intro c member
    simp only [bne_iff_ne]
    rintro rfl
    exact noPoint member
  rw [decimalPlaces, List.dropWhile_append_of_pos passed]
  rfl

theorem point_not_mem_of_isDigits {digits : Text} (valid : IsDigits digits) : '.' ∉ digits :=
  fun member => absurd (valid '.' member) (by decide)

end Text

namespace Decimal

open Binary64 (Magnitude)

/-! ## Digits of natural numbers -/

theorem digitChar_ne_zero {digit : Nat} (small : digit < 10) (nonzero : digit ≠ 0) :
    digitChar digit ≠ '0' := by
  have all : ∀ digit : Fin 10, digit ≠ 0 → digitChar digit ≠ '0' := by decide
  exact all ⟨digit, small⟩ (by simpa [Fin.ext_iff] using nonzero)

theorem digitCount_pos {value : Nat} (nonzero : value ≠ 0) : 0 < digitCount value := by
  rw [digitCount, if_neg nonzero]
  exact Nat.succ_pos _

theorem naturalDigits_of_lt {value : Nat} (small : value < 10) :
    naturalDigits value = [digitChar value] := by
  have count : max 1 (digitCount value) = 1 := by
    rw [digitCount]
    split
    · rfl
    · rw [Nat.div_eq_of_lt small, digitCount, if_pos rfl]
      rfl
  rw [naturalDigits, count, fixedDigits, fixedDigits, Nat.mod_eq_of_lt small, List.nil_append]

/-- The digits of a number are those of its tenth and its last one. -/
theorem naturalDigits_of_le {value : Nat} (large : 10 ≤ value) :
    naturalDigits value = naturalDigits (value / 10) ++ [digitChar (value % 10)] := by
  have tenth : 0 < digitCount (value / 10) := digitCount_pos (by omega)
  have count : digitCount value = digitCount (value / 10) + 1 := by
    rw [digitCount, if_neg (by omega)]
  have widths : max 1 (digitCount value) = max 1 (digitCount (value / 10)) + 1 := by omega
  rw [naturalDigits, naturalDigits, widths, fixedDigits]

/-- A number other than zero has no leading zeros. -/
theorem isWholePart_naturalDigits_of_ne_zero {value : Nat} (nonzero : value ≠ 0) :
    ∃ first rest,
      naturalDigits value = first :: rest ∧ first.isDigit = true ∧ first ≠ '0' ∧ IsDigits rest := by
  induction value using Nat.strongRecOn with
  | ind value inductionHypothesis =>
      rcases Nat.lt_or_ge value 10 with small | large
      · exact ⟨digitChar value, [], naturalDigits_of_lt small, isDigit_digitChar small,
          digitChar_ne_zero small nonzero, nofun⟩
      · obtain ⟨first, rest, digits, digit, notZero, valid⟩ :=
          inductionHypothesis (value / 10) (by omega) (by omega)
        refine ⟨first, rest ++ [digitChar (value % 10)], ?_, digit, notZero, ?_⟩
        · rw [naturalDigits_of_le large, digits, List.cons_append]
        · refine valid.append fun c member => ?_
          rw [List.mem_singleton.mp member]
          exact isDigit_digitChar (Nat.mod_lt _ (by decide))

theorem isWholePart_naturalDigits (value : Nat) : Text.IsWholePart (naturalDigits value) := by
  by_cases zero : value = 0
  · rw [zero, naturalDigits_of_lt (by decide)]
    exact .zero
  · obtain ⟨first, rest, digits, digit, nonzero, valid⟩ := isWholePart_naturalDigits_of_ne_zero zero
    rw [digits]
    exact .positive digit nonzero valid

/-! ## Decimal numbers -/

/-- A number is written by the grammar if its digits behind the point do not end in zero. -/
theorem isPlainNumber_plain
    {number : Decimal}
    (negative : Bool)
    (reduced : number.exponent < 0 → number.digits % 10 ≠ 0) :
    Text.IsPlainNumber (Binary64.signText negative ++ number.plain) := by
  have fraction : Text.IsFractionPart
      (if (-number.exponent).toNat = 0 then []
        else '.' :: fixedDigits (-number.exponent).toNat number.digits) := by
    split
    next => exact .nothing
    next places =>
      obtain ⟨width, more⟩ := Nat.exists_eq_succ_of_ne_zero places
      rw [more, fixedDigits]
      have last : number.digits % 10 < 10 := Nat.mod_lt _ (by decide)
      exact .places (isDigits_fixedDigits _ _) (isDigit_digitChar last)
        (digitChar_ne_zero last (reduced (by omega)))
  have whole := isWholePart_naturalDigits
    (number.digits * 10 ^ number.exponent.toNat / 10 ^ (-number.exponent).toNat)
  have plus : Text.IsPlainNumber number.plain := .plus whole fraction
  have minus : Text.IsPlainNumber ('-' :: number.plain) := .minus whole fraction
  cases negative with
  | false => exact plus
  | true => exact minus

theorem point_not_mem_signText (negative : Bool) : '.' ∉ Binary64.signText negative := by
  cases negative <;> decide

theorem decimalPlaces_plain (negative : Bool) (number : Decimal) :
    Text.decimalPlaces (Binary64.signText negative ++ number.plain) = (-number.exponent).toNat := by
  rw [Text.decimalPlaces_append (point_not_mem_signText negative), plain,
    Text.decimalPlaces_append (Text.point_not_mem_of_isDigits (isDigits_naturalDigits _))]
  split
  next none => exact none.symm
  next => exact length_fixedDigits _ _

end Decimal

/-! ## Double-precision numbers -/

namespace Binary64

theorem isPlainNumber_finiteText (negative : Bool) (size : Magnitude) :
    Text.IsPlainNumber (finiteText negative size) :=
  Decimal.isPlainNumber_plain negative Decimal.digits_shortest_mod_ten

/-- Numbers are written by the grammar. -/
theorem isPlainNumber_cssText (value : Binary64) : Text.IsPlainNumber value.cssText := by
  have zero : Text.IsPlainNumber ['0'] := .plus .zero .nothing
  cases value with
  | nan => exact zero
  | infinite negative => exact isPlainNumber_finiteText negative Magnitude.largest
  | finite negative size =>
      rw [cssText]
      split
      next => exact zero
      next => exact isPlainNumber_finiteText negative size

/-- A magnitude that a number on a grid reads back as is written with at most the decimal
places of that grid. -/
theorem decimalPlaces_cssText_le
    {size : Magnitude}
    {number : Decimal}
    (negative : Bool)
    (reads : Decimal.readsBack size number = true)
    (fractional : number.exponent ≤ 0) :
    Text.decimalPlaces (finite negative size).cssText ≤ (-number.exponent).toNat := by
  have coarsest := Decimal.le_exponent_shortest reads (by omega)
  rw [cssText]
  split
  next => exact Nat.zero_le _
  next =>
    rw [finiteText, Decimal.decimalPlaces_plain]
    omega

end Binary64

end CssRescale
