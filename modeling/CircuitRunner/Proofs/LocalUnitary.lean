import Mathlib
import CircuitRunner.Proofs.UnitNorm

/-! A unitary matrix acts locally. The part of a state in which the other qubits have given values is moved
within itself, so its norm stays, and no measurement of another qubit notices the matrix. -/
namespace CircuitRunner

open ComplexNumber

namespace State

section Parts
variable {K : Type} [CommRing K] {n : Nat} (keep : Nat → Prop) [DecidablePred keep] (state : State K n)

def part : State K n := state.mapAmplitudes fun index amplitude => if keep index then amplitude else 0

theorem amplitude_part {index : Nat} (bound : index < Basis.size n) :
    (state.part keep).amplitude index = if keep index then state.amplitude index else 0 :=
  amplitude_tabulate _ bound

/-- A matrix moves amplitudes between basis states that differ in operand bits only. A condition on other
bits holds of all of them or of none. -/
theorem applyOperator_part {qubits : List Nat} (inside : ∀ qubit ∈ qubits, qubit < n)
    (other : ∀ number index, keep (Basis.scatter qubits number index) ↔ keep index) (operator : Operator K) :
    (state.part keep).applyOperator operator qubits = (state.applyOperator operator qubits).part keep := by
  apply ext_amplitude
  intro index bound
  have moved (number : Nat) : (state.part keep).amplitude (Basis.scatter qubits number index) =
      if keep index then state.amplitude (Basis.scatter qubits number index) else 0 := by
    rw [amplitude_part keep state (Basis.scatter_lt inside bound number)]
    simp only [other]
  rw [amplitude_part keep _ bound, amplitude_applyOperator _ _ _ bound, amplitude_applyOperator _ _ _ bound]
  by_cases kept : keep index
  · simp only [moved, if_pos kept]
  · simp only [moved, if_neg kept, mul_zero, Finset.sum_const_zero]

end Parts

variable {n : Nat}

theorem squaredNorm_part (keep : Nat → Prop) [DecidablePred keep] (state : State (ComplexNumber ℝ) n) :
    (state.part keep).squaredNorm =
      ∑ index ∈ Finset.range (Basis.size n) with keep index, (state.amplitude index).normSq := by
  rw [squaredNorm, Finset.sum_filter]
  apply Finset.sum_congr rfl
  intro index member
  rw [amplitude_part keep state (Finset.mem_range.1 member)]
  split
  · rfl
  · exact normSq_zero

theorem squaredNorm_part_of_unitary {qubits : List Nat} (distinct : qubits.Nodup)
    (inside : ∀ qubit ∈ qubits, qubit < n) {operator : Operator (ComplexNumber ℝ)}
    (unitary : operator.matrix qubits.length ∈ Matrix.unitaryGroup (Fin (Basis.size qubits.length)) ℂ)
    {keep : Nat → Prop} [DecidablePred keep]
    (other : ∀ number index, keep (Basis.scatter qubits number index) ↔ keep index)
    (state : State (ComplexNumber ℝ) n) :
    ((state.applyOperator operator qubits).part keep).squaredNorm = (state.part keep).squaredNorm := by
  rw [← applyOperator_part keep state inside other]
  exact Operator.squaredNorm_of_unitary qubits unitary distinct inside (state.part keep)

theorem probabilityOne_eq_part (state : State (ComplexNumber ℝ) n) (qubit : Nat) :
    state.probabilityOne qubit = (state.part (Nat.testBit · qubit = true)).squaredNorm := by
  rw [probabilityOne_eq, weight_eq, squaredNorm_part, Finset.sum_filter]

/-- Applying a unitary matrix to distinct qubits keeps, for all values of the others, the squared norm of
the part with these values, so it keeps the norm and the probabilities of the other qubits. -/
theorem applyMatrix_unitary_local (state : State (ComplexNumber ℝ) n) (operator : Operator (ComplexNumber ℝ))
    (qubits : List Nat) (distinct : qubits.Nodup) (inside : ∀ qubit ∈ qubits, qubit < n)
    (rows : operator.rows = Basis.size qubits.length) (columns : operator.columns = Basis.size qubits.length)
    (unitary : (operator.matrix qubits.length).conjTranspose * operator.matrix qubits.length = 1) :
    ∃ after, state.applyMatrix (.matrix qubits.length operator) qubits = .ok after ∧
      (∀ values : Nat → Bool,
        ∑ index ∈ Finset.range (Basis.size n) with
            ∀ qubit < n, qubit ∉ qubits → index.testBit qubit = values qubit,
          (after.amplitude index).normSq =
        ∑ index ∈ Finset.range (Basis.size n) with
            ∀ qubit < n, qubit ∉ qubits → index.testBit qubit = values qubit,
          (state.amplitude index).normSq) ∧
      after.squaredNorm = state.squaredNorm ∧
      ∀ qubit ∉ qubits, after.probabilityOne qubit = state.probabilityOne qubit := by
  have group : operator.matrix qubits.length ∈ Matrix.unitaryGroup (Fin (Basis.size qubits.length)) ℂ :=
    Matrix.mem_unitaryGroup_iff'.2 unitary
  refine ⟨_, applyMatrix_ok state rfl ⟨rows.ge, columns.ge⟩ inside, ?_, ?_, ?_⟩
  · intro values
    rw [← squaredNorm_part, ← squaredNorm_part]
    apply squaredNorm_part_of_unitary distinct inside group
    intro number index
    refine forall_congr' fun qubit => forall_congr' fun _ => forall_congr' fun unlisted => ?_
    rw [Basis.testBit_scatter_of_notMem unlisted]
  · exact Operator.squaredNorm_of_unitary qubits group distinct inside state
  · intro qubit unlisted
    rw [probabilityOne_eq_part, probabilityOne_eq_part]
    apply squaredNorm_part_of_unitary distinct inside group
    intro number index
    rw [Basis.testBit_scatter_of_notMem unlisted]

/-- A controlled Hadamard gate on the outer two of three qubits, seen from the one between them. -/
theorem applyMatrix_unitary_local_between :
    let state : State (ComplexNumber ℝ) 3 := tabulate 3 fun index => ofReal index
    let half : ComplexNumber ℝ := ofReal Scalar.sqrtHalf
    let operator := Operator.ofRows [[1, 0, 0, 0], [0, 1, 0, 0], [0, 0, half, half], [0, 0, half, -half]]
    ∃ after, state.applyMatrix (.matrix 2 operator) [2, 0] = .ok after ∧ after.probabilityOne 1 = 98 := by
  intro state half operator
  have unitary : (operator.matrix 2).conjTranspose * operator.matrix 2 = 1 :=
    Matrix.mem_unitaryGroup_iff'.1 (Operator.unitary_controlled UnitaryPair.hadamard)
  obtain ⟨after, applied, _, _, others⟩ :=
    applyMatrix_unitary_local state operator [2, 0] (by decide) (by decide) rfl rfl unitary
  refine ⟨after, applied, ?_⟩
  have squared (index : Nat) (bound : index < 8) : (state.amplitude index).normSq = index * index := by
    rw [amplitude_tabulate _ bound]
    simp [normSq, ofReal]
  have set : {index ∈ Finset.range (Basis.size 3) | index.testBit 1 = true} = {2, 3, 6, 7} := by decide
  rw [others 1 (by decide), probabilityOne_eq_part, squaredNorm_part, set, Finset.sum_insert (by decide),
    Finset.sum_insert (by decide), Finset.sum_insert (by decide), Finset.sum_singleton, squared 2 (by decide),
    squared 3 (by decide), squared 6 (by decide), squared 7 (by decide)]
  norm_num

end State
end CircuitRunner
