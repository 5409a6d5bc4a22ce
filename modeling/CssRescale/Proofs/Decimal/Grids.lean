import CssRescale.Proofs.Decimal.Nearest
import CssRescale.Proofs.Decimal.Shortest

/-!
Contract: the shortest decimal number stands on the coarsest grid it can.

Rounding keeps the order, and a magnitude reads back as itself. So the numbers of a grid
that read back as a magnitude lie around it without a gap, and if there is one then a
neighbour of the magnitude is among them.

Owns:
- a grid with a number that reads back gives a number;
- no such grid is coarser than that of the shortest number;
- behind the point, the shortest number does not end in zero.
-/

set_option autoImplicit false

namespace CssRescale.Decimal

open Binary64 (Magnitude roundUnits unitsPerOne)

/-! ## One grid -/

section

variable (size : Magnitude) (exponent : Int)

theorem lowerNeighbour_le :
    (lowerNeighbour size exponent).digits * 10 ^ exponent.toNat * unitsPerOne ≤
      size.units * 10 ^ (-exponent).toNat := by
  rw [Nat.mul_assoc, Nat.mul_comm _ unitsPerOne]
  exact Nat.div_mul_le_self _ _

theorem lt_lowerNeighbour :
    size.units * 10 ^ (-exponent).toNat <
      ((lowerNeighbour size exponent).digits + 1) * 10 ^ exponent.toNat * unitsPerOne := by
  have positive : 0 < unitsPerOne * 10 ^ exponent.toNat :=
    Nat.mul_pos Binary64.unitsPerOne_pos (Nat.pow_pos (by decide))
  rw [Nat.mul_assoc, Nat.mul_comm _ unitsPerOne]
  exact (Nat.div_lt_iff_lt_mul positive).mp (Nat.lt_succ_self _)

variable {size exponent}

/-- A number of the grid that reads back has a neighbour of the magnitude beside it, or
is one itself. -/
theorem readsBack_neighbour
    {digits : Nat}
    (reads : readsBack size ⟨digits, exponent⟩ = true) :
    readsBack size (lowerNeighbour size exponent) = true ∨
      readsBack size ⟨(lowerNeighbour size exponent).digits + 1, exponent⟩ = true := by
  have below := lowerNeighbour_le size exponent
  have above := Nat.le_of_lt (lt_lowerNeighbour size exponent)
  have grid : (lowerNeighbour size exponent).exponent = exponent := rfl
  rw [readsBack_iff, readsBack_iff, grid]
  rw [readsBack_iff] at reads
  simp only at reads ⊢
  generalize (lowerNeighbour size exponent).digits = lower at below above ⊢
  have positive : 0 < 10 ^ (-exponent).toNat := Nat.pow_pos (by decide)
  -- The digits of the grid in order, each rounded.
  have order : ∀ {smaller larger : Nat}, smaller ≤ larger →
      roundUnits (smaller * 10 ^ exponent.toNat * unitsPerOne) (10 ^ (-exponent).toNat) ≤
        roundUnits (larger * 10 ^ exponent.toNat * unitsPerOne) (10 ^ (-exponent).toNat) :=
    fun smallerLarger => Binary64.roundUnits_mono _
      (Nat.mul_le_mul_right _ (Nat.mul_le_mul_right _ smallerLarger))
  rcases Nat.lt_or_ge lower digits with greater | smaller
  · right
    apply Nat.le_antisymm
    · exact reads ▸ order greater
    · exact Binary64.le_roundUnits_of_le positive size.representable.2 above
  · left
    apply Nat.le_antisymm
    · exact Binary64.roundUnits_le_of_le positive size.representable.2 below
    · exact reads ▸ order smaller

theorem exponent_of_onGrid?
    {number : Decimal}
    (found : onGrid? size exponent = some number) :
    number.exponent = exponent := by
  unfold onGrid? at found
  simp only at found
  split at found
  · split at found
    · exact (Option.some.inj found) ▸ rfl
    · exact (Option.some.inj found) ▸ rfl
  · exact (Option.some.inj found) ▸ rfl
  · exact (Option.some.inj found) ▸ rfl
  · cases found

theorem onGrid?_ne_none
    {digits : Nat}
    (reads : readsBack size ⟨digits, exponent⟩ = true) :
    onGrid? size exponent ≠ none := by
  unfold onGrid?
  simp only
  rcases readsBack_neighbour reads with below | above
  · rw [below]
    split <;> simp_all
  · rw [above]
    split <;> simp_all

end

/-! ## All grids -/

theorem mem_exponentsFrom {coarsest : Nat} {exponent : Int} :
    exponent ∈ exponentsFrom coarsest ↔ -(finestExponent : Int) ≤ exponent ∧ exponent ≤ coarsest := by
  simp only [exponentsFrom, List.mem_map, List.mem_range]
  constructor
  · rintro ⟨step, inside, rfl⟩
    omega
  · rintro ⟨fine, coarse⟩
    exact ⟨(coarsest - exponent).toNat, by omega, by omega⟩

/-- Grids are tried from coarse to fine. -/
theorem pairwise_exponentsFrom (coarsest : Nat) :
    (exponentsFrom coarsest).Pairwise fun earlier later => later < earlier := by
  rw [exponentsFrom, List.pairwise_map]
  exact List.pairwise_lt_range.imp fun order => by omega

/-- The search ends with a grid, and none of the coarser ones has a number that reads back. -/
theorem exists_grid_shortest (size : Magnitude) :
    ∃ exponent,
      onGrid? size exponent = some (shortest size) ∧
        ∀ other, exponent < other → other ≤ wholeDigitCount size → onGrid? size other = none := by
  unfold shortest
  cases found : (exponentsFrom (wholeDigitCount size)).findSome? (onGrid? size) with
  | none =>
      have finest := List.findSome?_eq_none_iff.mp found (-(finestExponent : Int))
        (mem_exponentsFrom.mpr (by omega))
      exact absurd finest (onGrid?_ne_none (readsBack_finest size))
  | some number =>
      obtain ⟨coarser, exponent, finer, grids, here, before⟩ := List.findSome?_eq_some_iff.mp found
      refine ⟨exponent, here, fun other above inside => ?_⟩
      have ordered := pairwise_exponentsFrom (wholeDigitCount size)
      have tried : exponent ∈ exponentsFrom (wholeDigitCount size) := by simp [grids]
      have fine := (mem_exponentsFrom.mp tried).1
      have member : other ∈ exponentsFrom (wholeDigitCount size) :=
        mem_exponentsFrom.mpr ⟨by omega, inside⟩
      rw [grids] at ordered member
      rcases List.mem_append.mp member with earlier | later
      · exact before other earlier
      · rcases List.mem_cons.mp later with rfl | finer
        · omega
        · have order := (List.pairwise_cons.mp (List.pairwise_append.mp ordered).2.1).1 other finer
          omega

/-- No grid with a number that reads back is coarser than that of the shortest number. -/
theorem le_exponent_shortest
    {size : Magnitude}
    {number : Decimal}
    (reads : readsBack size number = true)
    (tried : number.exponent ≤ wholeDigitCount size) :
    number.exponent ≤ (shortest size).exponent := by
  obtain ⟨exponent, here, coarser⟩ := exists_grid_shortest size
  rw [exponent_of_onGrid? here]
  apply Int.not_lt.mp
  intro above
  exact onGrid?_ne_none reads (coarser number.exponent above tried)

/-- Behind the point the last digit of the shortest number is none that could be dropped. -/
theorem digits_shortest_mod_ten
    {size : Magnitude}
    (fractional : (shortest size).exponent < 0) :
    (shortest size).digits % 10 ≠ 0 := by
  intro divides
  have reads := readsBack_shortest size
  have bound : ∀ number, readsBack size number = true → number.exponent ≤ wholeDigitCount size →
      number.exponent ≤ (shortest size).exponent := fun _ => le_exponent_shortest
  generalize shortest size = number at fractional divides reads bound
  obtain ⟨digits, exponent⟩ := number
  simp only at fractional divides
  have shorter : digits / 10 * 10 = digits := Nat.div_mul_cancel (Nat.dvd_of_mod_eq_zero divides)
  rw [← shorter, readsBack_mul_ten fractional] at reads
  have coarser := bound _ reads (by simp only; omega)
  simp only at coarser
  omega

end CssRescale.Decimal
