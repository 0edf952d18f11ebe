import Mathlib
import CircuitRunner.Proofs.Kernel

/-! Matrices applied one after the other. On the same qubits they act as their product, on qubits apart
from each other in either order. -/
namespace CircuitRunner

namespace Operator
variable {K : Type} {count : Nat}

def ofMatrix (matrix : Matrix (Fin count) (Fin count) K) : Operator K :=
  ⟨count, count, .ofFn fun row => .ofFn fun column => matrix row column⟩

theorem entry_ofMatrix [Zero K] (matrix : Matrix (Fin count) (Fin count) K) (row column : Fin count) :
    (ofMatrix matrix).entry row column = matrix row column := by
  simp [entry, ofMatrix]

end Operator

namespace State
variable {K : Type} [CommRing K] {n : Nat} {qubits others : List Nat}

theorem amplitude_applyOperator_ofMatrix (state : State K n)
    (matrix : Matrix (Fin (Basis.size qubits.length)) (Fin (Basis.size qubits.length)) K)
    {index : Nat} (bound : index < Basis.size n) :
    (state.applyOperator (.ofMatrix matrix) qubits).amplitude index =
      ∑ column, matrix ⟨Basis.gather qubits index, Basis.gather_lt qubits index⟩ column *
        state.amplitude (Basis.scatter qubits column index) := by
  rw [amplitude_applyOperator state _ qubits bound, Finset.sum_range]
  apply Finset.sum_congr rfl
  intro column _
  rw [← Operator.entry_ofMatrix matrix]

theorem applyOperator_mul (distinct : qubits.Nodup) (inside : ∀ qubit ∈ qubits, qubit < n) (state : State K n)
    (outer inner : Matrix (Fin (Basis.size qubits.length)) (Fin (Basis.size qubits.length)) K) :
    (state.applyOperator (.ofMatrix inner) qubits).applyOperator (.ofMatrix outer) qubits =
      state.applyOperator (.ofMatrix (outer * inner)) qubits := by
  apply ext_amplitude
  intro index bound
  -- The operand bits that the outer matrix asks for are those that the inner one reads off again.
  have replaced (column : Fin (Basis.size qubits.length)) :
      (state.applyOperator (.ofMatrix inner) qubits).amplitude (Basis.scatter qubits column index) =
        ∑ other, inner column other * state.amplitude (Basis.scatter qubits other index) := by
    have read : (⟨_, Basis.gather_lt qubits (Basis.scatter qubits column index)⟩ :
        Fin (Basis.size qubits.length)) = column := Fin.ext (Basis.gather_scatter distinct column.isLt index)
    rw [amplitude_applyOperator_ofMatrix state inner (Basis.scatter_lt inside bound column), read]
    simp only [Basis.scatter_scatter]
  rw [amplitude_applyOperator_ofMatrix _ outer bound, amplitude_applyOperator_ofMatrix _ (outer * inner) bound]
  simp only [replaced, Matrix.mul_apply, Finset.mul_sum, Finset.sum_mul]
  rw [Finset.sum_comm]
  simp only [mul_assoc]

theorem applyOperator_comm (inside : ∀ qubit ∈ qubits, qubit < n) (outside : ∀ qubit ∈ others, qubit < n)
    (apart : qubits.Disjoint others) (state : State K n) (first second : Operator K) :
    (state.applyOperator first qubits).applyOperator second others =
      (state.applyOperator second others).applyOperator first qubits := by
  apply ext_amplitude
  intro index bound
  have one (number : Nat) := amplitude_applyOperator state first qubits
    (Basis.scatter_lt outside bound number)
  have two (number : Nat) := amplitude_applyOperator state second others
    (Basis.scatter_lt inside bound number)
  rw [amplitude_applyOperator _ second others bound, amplitude_applyOperator _ first qubits bound]
  -- Either matrix finds its own operand bits as they were.
  simp only [one, two, Basis.gather_scatter_of_disjoint apart, Basis.gather_scatter_of_disjoint apart.symm,
    Finset.mul_sum]
  rw [Finset.sum_comm]
  refine Finset.sum_congr rfl fun column _ => Finset.sum_congr rfl fun other _ => ?_
  rw [Basis.scatter_comm apart, mul_left_comm]

/-- Applying matrices composes and commutes: two of them on the same distinct qubits are their product,
and on lists of qubits without a common one the order does not matter. -/
theorem applyOperator_compose_commute (state : State K n) (inside : ∀ qubit ∈ qubits, qubit < n) :
    (qubits.Nodup → ∀ outer inner : Matrix (Fin (Basis.size qubits.length)) (Fin (Basis.size qubits.length)) K,
      (state.applyOperator (.ofMatrix inner) qubits).applyOperator (.ofMatrix outer) qubits =
        state.applyOperator (.ofMatrix (outer * inner)) qubits) ∧
      ∀ others : List Nat, (∀ qubit ∈ others, qubit < n) → qubits.Disjoint others →
        ∀ first second : Operator K,
          (state.applyOperator first qubits).applyOperator second others =
            (state.applyOperator second others).applyOperator first qubits := by
  refine ⟨fun distinct outer inner => ?_, fun others outside apart first second => ?_⟩
  · exact applyOperator_mul distinct inside state outer inner
  · exact applyOperator_comm inside outside apart state first second

/-- Two outer qubits of three, and the one between them. -/
theorem applyOperator_compose_commute_interleaved :
    let state : State Int 3 := tabulate 3 fun index => index + 1
    let outer : Matrix (Fin (Basis.size 2)) (Fin (Basis.size 2)) Int := fun row column => row + 2 * column
    let inner : Matrix (Fin (Basis.size 2)) (Fin (Basis.size 2)) Int := fun row column => row * column - 1
    let middle : Operator Int := .ofRows [[1, 2], [3, 4]]
    (∀ qubit ∈ [2, 0], qubit < 3) ∧ [2, 0].Nodup ∧ (∀ qubit ∈ [1], qubit < 3) ∧ [2, 0].Disjoint [1] ∧
      (state.applyOperator (.ofMatrix inner) [2, 0]).applyOperator (.ofMatrix outer) [2, 0] =
        state.applyOperator (.ofMatrix (outer * inner)) [2, 0] ∧
      (state.applyOperator (.ofMatrix outer) [2, 0]).applyOperator middle [1] =
        (state.applyOperator middle [1]).applyOperator (.ofMatrix outer) [2, 0] := by
  intro state outer inner middle
  have inside : ∀ qubit ∈ [2, 0], qubit < 3 := by decide
  have distinct : [2, 0].Nodup := by decide
  have outside : ∀ qubit ∈ [1], qubit < 3 := by decide
  have apart : [2, 0].Disjoint [1] := List.disjoint_singleton.2 (by decide)
  obtain ⟨composes, commutes⟩ := applyOperator_compose_commute state inside
  exact ⟨inside, distinct, outside, apart, composes distinct outer inner,
    commutes [1] outside apart (.ofMatrix outer) middle⟩

end State
end CircuitRunner
