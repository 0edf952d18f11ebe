import Mathlib
import CircuitRunner.Proofs.DiagonalObservable
import CircuitRunner.Proofs.InPlaceSweep

/-! Expectation values and gates read matrix indices alike. Reversing the bits of an index, by shifts, gives
the number that the qubits of the whole register form when they are listed in order, so an expectation value
is the product of a state with its image under the matrix as a gate on all qubits. -/
namespace CircuitRunner

namespace Basis

def mirrored (n index : Nat) : Nat :=
  (List.range n).foldl (fun number qubit => number ||| ((index >>> qubit &&& 1) <<< (n - 1 - qubit))) 0

theorem testBit_shifted (index qubit place bit : Nat) :
    ((index >>> qubit &&& 1) <<< place).testBit bit = (decide (bit = place) && index.testBit qubit) := by
  rw [Nat.testBit_shiftLeft, Nat.testBit_and, Nat.testBit_shiftRight]
  by_cases same : bit = place
  · subst same
    simp
  · by_cases above : place ≤ bit
    · have positive : bit - place ≠ 0 := by omega
      have unset : Nat.testBit 1 (bit - place) = false :=
        Bool.eq_false_iff.2 (mt Nat.testBit_one_eq_true_iff_self_eq_zero.1 positive)
      simp [same, unset]
    · simp [same, above]

theorem testBit_foldl_shifted (place : Nat → Nat) (qubits : List Nat) (index start bit : Nat) :
    (qubits.foldl (fun number qubit => number ||| ((index >>> qubit &&& 1) <<< place qubit)) start).testBit bit =
      (start.testBit bit || qubits.any fun qubit => decide (bit = place qubit) && index.testBit qubit) := by
  induction qubits generalizing start with
  | nil => simp
  | cons qubit rest ih => rw [List.foldl_cons, ih, Nat.testBit_or, testBit_shifted, List.any_cons, Bool.or_assoc]

theorem mirrored_eq (n index : Nat) : mirrored n index = reversed n index := by
  apply Nat.eq_of_testBit_eq
  intro bit
  rw [← gather_range, testBit_gather_range, mirrored, testBit_foldl_shifted, Nat.zero_testBit, Bool.false_or,
    Bool.eq_iff_iff, List.any_eq_true]
  constructor
  · rintro ⟨qubit, listed, both⟩
    have inside := List.mem_range.1 listed
    obtain ⟨rfl, set⟩ : bit = n - 1 - qubit ∧ index.testBit qubit = true := by simpa using both
    have mirrored : n - 1 - (n - 1 - qubit) = qubit := by omega
    have small : n - 1 - qubit < n := by omega
    rw [mirrored, set, decide_eq_true small]
    rfl
  · intro both
    obtain ⟨inside, set⟩ : bit < n ∧ index.testBit (n - 1 - bit) = true := by simpa using both
    have mirrored : bit = n - 1 - (n - 1 - bit) := by omega
    refine ⟨n - 1 - bit, List.mem_range.2 (by omega), ?_⟩
    rw [← mirrored, set, decide_eq_true rfl]
    rfl

theorem reversed_reversed {n index : Nat} (inside : index < size n) : reversed n (reversed n index) = index := by
  rw [reversed, reversed, BitVec.ofNat_toNat, BitVec.setWidth_eq, BitVec.reverse_reverse_eq, BitVec.toNat_ofNat]
  exact Nat.mod_eq_of_lt inside

/-- All qubits replaced, nothing is left of the index. -/
theorem scatter_range {n index other : Nat} (inside : index < size n) (otherInside : other < size n) :
    scatter (List.range n) (reversed n other) index = other := by
  have cleared {index : Nat} (inside : index < size n) : clearAll (List.range n) index = 0 := by
    apply Nat.eq_of_testBit_eq
    intro bit
    rw [testBit_clearAll, Nat.zero_testBit]
    by_cases listed : bit < n
    · simp [listed]
    · rw [testBit_of_size_le inside (not_lt.1 listed), Bool.false_and]
  rw [← gather_range]
  exact scatter_gather_of_clearAll ((cleared inside).trans (cleared otherInside).symm)

end Basis

open ComplexNumber

namespace State

/-- Part of an expectation value: the terms of the listed basis states, with the place of each index in the matrix
given by a function. -/
def expectationOver {R : Type} [Scalar R] {n : Nat} (position : Nat → Nat) (rows : List Nat)
    (operator : Operator (ComplexNumber R)) (state : State (ComplexNumber R) n) : R :=
  (accumulate <| rows.map fun row => (state.amplitude row).conjugate *
    accumulate ((List.range (Basis.size n)).map fun column =>
      operator.entry (position row) (position column) * state.amplitude column)).re

/-- As a gate on all qubits in order, a matrix finds basis states at their reversed indices. -/
theorem amplitude_applyOperator_range {K : Type} [CommRing K] {n : Nat} (state : State K n) (operator : Operator K)
    {index : Nat} (bound : index < Basis.size n) :
    (state.applyOperator operator (List.range n)).amplitude index =
      ∑ column ∈ Finset.range (Basis.size n),
        operator.entry (Basis.reversed n index) (Basis.reversed n column) * state.amplitude column := by
  rw [amplitude_applyOperator state operator _ bound, List.length_range, Basis.gather_range]
  refine Finset.sum_nbij' (Basis.reversed n) (Basis.reversed n) ?_ ?_ ?_ ?_ ?_
  · exact fun column _ => Finset.mem_range.2 (Basis.reversed_lt n column)
  · exact fun column _ => Finset.mem_range.2 (Basis.reversed_lt n column)
  · exact fun column member => Basis.reversed_reversed (Finset.mem_range.1 member)
  · exact fun column member => Basis.reversed_reversed (Finset.mem_range.1 member)
  · intro column member
    have place := Basis.scatter_range bound (Basis.reversed_lt n column)
    rw [Basis.reversed_reversed (Finset.mem_range.1 member)] at place
    rw [Basis.reversed_reversed (Finset.mem_range.1 member), place]

variable {n : Nat} (state : State (ComplexNumber ℝ) n)

theorem re_product (other : State (ComplexNumber ℝ) n) :
    (star state.vector ⬝ᵥ other.vector).re = ∑ index ∈ Finset.range (Basis.size n),
      ((state.amplitude index).conjugate * other.amplitude index).re := by
  rw [dotProduct, Complex.re_sum, Finset.sum_range]
  rfl

theorem expectation_eq_over (operator : Operator (ComplexNumber ℝ)) :
    state.expectation operator =
      state.expectationOver (Basis.mirrored n) (List.range (Basis.size n)) operator := by
  rw [expectation_eq, expectationOver, accumulate_range, re_sum]
  simp only [accumulate_range, Basis.mirrored_eq]

/-- The expectation value of a matrix is the real part of the product of a state with its image under the matrix
as a gate on all qubits in order. It is also the sum over all basis states, none left out, at the indices that
shifts reverse. -/
theorem expectation_eq_product (operator : Operator (ComplexNumber ℝ)) (rows : operator.rows = Basis.size n)
    (columns : operator.columns = Basis.size n) :
    ∃ image, state.applyMatrix (.matrix n operator) (List.range n) = .ok image ∧
      image = state.sweep operator (List.range n) ∧
      state.expectation operator = (star state.vector ⬝ᵥ image.vector).re ∧
      state.expectation operator =
        state.expectationOver (Basis.mirrored n) (List.range (Basis.size n)) operator := by
  have length : (List.range n).length = n := List.length_range
  refine ⟨state.applyOperator operator (List.range n), ?_, ?_, ?_, state.expectation_eq_over operator⟩
  · refine applyMatrix_ok state rfl ?_ fun operand => List.mem_range.1
    rw [length]
    exact ⟨rows.ge, columns.ge⟩
  · exact (sweep_eq_applyOperator operator _ state).symm
  · rw [expectation_eq, re_product]
    apply Finset.sum_congr rfl
    intro index member
    rw [amplitude_applyOperator_range state operator (Finset.mem_range.1 member)]

/-- Qubit 1 is one in the basis state of index 2, which the matrix has at place 1. -/
theorem expectation_eq_product_skewed :
    let state : State (ComplexNumber ℝ) 2 := tabulate 2 fun index => if index = 2 then ⟨0, 3⟩ else 0
    let operator : Operator (ComplexNumber ℝ) := .ofRows [[0, 0, 0, 0], [0, ofReal 5, 0, 0],
      [0, 0, ofReal 7, 0], [0, 0, 0, 0]]
    ∃ image, state.applyMatrix (.matrix 2 operator) [0, 1] = .ok image ∧
      state.expectation operator = (star state.vector ⬝ᵥ image.vector).re ∧ state.expectation operator = 45 := by
  intro state operator
  obtain ⟨image, applied, _, product, complete⟩ := expectation_eq_product state operator rfl rfl
  refine ⟨image, applied, product, ?_⟩
  have two : 2 ∈ Finset.range (Basis.size 2) := by decide
  have own : state.amplitude 2 = ⟨0, 3⟩ := amplitude_tabulate _ (Finset.mem_range.1 two)
  have absent (index : Nat) (member : index ∈ Finset.range (Basis.size 2)) (other : index ≠ 2) :
      state.amplitude index = 0 := (amplitude_tabulate _ (Finset.mem_range.1 member)).trans (if_neg other)
  have place : Basis.mirrored 2 2 = 1 := by decide
  have entry : operator.entry 1 1 = ofReal 5 := by simp [operator, Operator.entry_ofRows]
  rw [complete, expectationOver, accumulate_range, Finset.sum_eq_single_of_mem 2 two, accumulate_range,
    Finset.sum_eq_single_of_mem 2 two, own, place, entry]
  · norm_num [conjugate, ofReal]
  · intro column member other
    rw [absent column member other, mul_zero]
  · intro row member other
    rw [absent row member other, conjugate_zero, zero_mul]

end State
end CircuitRunner
