import CssRescale.Decimal.Basic
import CssRescale.Proofs.Text.Runs

/-!
Contract: decimal digits that are written read as the number they were written for.

Owns: the value of digits written in a fixed width and of those of a natural number.
-/

set_option autoImplicit false

namespace CssRescale.Decimal

open Text (digitsValue IsDigits)

/-! ## One digit -/

theorem isDigit_digitChar {digit : Nat} (small : digit < 10) : (digitChar digit).isDigit = true := by
  have all : ∀ digit : Fin 10, (digitChar digit).isDigit = true := by decide
  exact all ⟨digit, small⟩

theorem toNat_digitChar {digit : Nat} (small : digit < 10) :
    (digitChar digit).toNat - '0'.toNat = digit := by
  have all : ∀ digit : Fin 10, (digitChar digit).toNat - '0'.toNat = digit := by decide
  exact all ⟨digit, small⟩

/-! ## Runs of digits -/

theorem digitsValue_append (left right : Text) :
    digitsValue (left ++ right) = digitsValue left * 10 ^ right.length + digitsValue right := by
  have shift : ∀ (text : Text) (start : Nat),
      text.foldl (fun value digit => 10 * value + (digit.toNat - '0'.toNat)) start =
        start * 10 ^ text.length + digitsValue text := by
    intro text
    induction text with
    | nil => intro start; simp [digitsValue]
    | cons first rest inductionHypothesis =>
        intro start
        have head : digitsValue (first :: rest) =
            (first.toNat - '0'.toNat) * 10 ^ rest.length + digitsValue rest := by
          rw [digitsValue, List.foldl_cons, inductionHypothesis, Nat.mul_zero, Nat.zero_add]
        rw [List.foldl_cons, inductionHypothesis, head, List.length_cons, Nat.pow_succ, Nat.add_mul,
          Nat.mul_comm 10 start, Nat.mul_assoc, Nat.mul_comm 10, Nat.add_assoc]
  rw [digitsValue, List.foldl_append, shift]
  rfl

theorem digitsValue_digitChar {digit : Nat} (small : digit < 10) :
    digitsValue [digitChar digit] = digit := by
  rw [digitsValue, List.foldl_cons, List.foldl_nil, toNat_digitChar small, Nat.mul_zero, Nat.zero_add]

@[simp]
theorem length_fixedDigits (width value : Nat) : (fixedDigits width value).length = width := by
  induction width generalizing value with
  | zero => rfl
  | succ width inductionHypothesis => simp [fixedDigits, inductionHypothesis]

theorem isDigits_fixedDigits (width value : Nat) : IsDigits (fixedDigits width value) := by
  induction width generalizing value with
  | zero => exact fun _ member => absurd member List.not_mem_nil
  | succ width inductionHypothesis =>
      apply (inductionHypothesis (value / 10)).append
      intro c member
      rw [List.mem_singleton.mp member]
      exact isDigit_digitChar (Nat.mod_lt _ (by decide))

/-- The last digits of a number are its remainder by a power of ten. -/
theorem digitsValue_fixedDigits (width value : Nat) :
    digitsValue (fixedDigits width value) = value % 10 ^ width := by
  induction width generalizing value with
  | zero => simp [fixedDigits, digitsValue, Nat.mod_one]
  | succ width inductionHypothesis =>
      have last : value % 10 < 10 := Nat.mod_lt _ (by decide)
      rw [fixedDigits, digitsValue_append, inductionHypothesis, digitsValue_digitChar last,
        Nat.pow_succ, Nat.mul_comm (10 ^ width) 10, Nat.mod_mul]
      simp only [List.length_singleton, Nat.pow_one]
      omega

/-! ## Natural numbers -/

theorem lt_pow_digitCount (value : Nat) : value < 10 ^ digitCount value := by
  fun_induction digitCount value with
  | case1 => decide
  | case2 value nonzero inductionHypothesis =>
      rw [Nat.pow_succ]
      omega

theorem naturalDigits_ne_nil (value : Nat) : naturalDigits value ≠ [] := by
  intro none
  have length := congrArg List.length none
  rw [naturalDigits, length_fixedDigits, List.length_nil] at length
  omega

theorem isDigits_naturalDigits (value : Nat) : IsDigits (naturalDigits value) :=
  isDigits_fixedDigits _ value

theorem digitsValue_naturalDigits (value : Nat) : digitsValue (naturalDigits value) = value := by
  rw [naturalDigits, digitsValue_fixedDigits]
  refine Nat.mod_eq_of_lt (Nat.lt_of_lt_of_le (lt_pow_digitCount value) ?_)
  exact Nat.pow_le_pow_right (by decide) (Nat.le_max_right _ _)

end CssRescale.Decimal
