import Mathlib
import CircuitRunner.State
import CircuitRunner.Proofs.BasisIndex
import CircuitRunner.Proofs.ExactNumber

/-! The gates with a rule of their own act as their matrices do, on any operands. -/
namespace CircuitRunner

theorem Operator.entry_ofRows {K : Type} [Zero K] (rows : List (List K)) {row column : Nat}
    (inRows : row < rows.length) (inColumns : column < (rows.head?.map List.length).getD 0) :
    (ofRows rows).entry row column = ((rows[row]?).bind (·[column]?)).getD 0 :=
  entry_tabulate _ _ _ inRows inColumns

def Gate.hasKernel {R : Type} : Gate R → Bool
  | .i | .x | .y | .z | .h | .s | .t | .ph _ | .rz _ | .cnot | .csign | .swap | .ccnot => true
  | .rx _ | .ry _ | .iswap | .controlled _ | .matrix _ _ => false

theorem Gate.operator_of_hasKernel {R : Type} [Scalar R] (gate : Gate R) (kernel : gate.hasKernel = true) :
    ∃ operator, gate.operator = .ok operator ∧ operator.rows = Basis.size gate.arity ∧
      operator.columns = Basis.size gate.arity := by
  cases gate with
  | rx | ry | iswap | controlled | matrix => cases kernel
  | i | x | y | z | h | s | t | ph | rz | cnot | csign | swap | ccnot => exact ⟨_, rfl, rfl, rfl⟩

namespace State

section General
variable {K : Type} [CommRing K] {n : Nat} (state : State K n)

theorem amplitude_applyOperator (operator : Operator K) (qubits : List Nat)
    {index : Nat} (inside : index < Basis.size n) :
    (state.applyOperator operator qubits).amplitude index =
      ∑ column ∈ Finset.range (Basis.size qubits.length),
        operator.entry (Basis.gather qubits index) column *
          state.amplitude (Basis.scatter qubits column index) := by
  rw [applyOperator, amplitude_tabulate _ inside]
  exact accumulate_range _ _

/-- A matrix with one nonzero entry in each row moves amplitudes and scales them. -/
theorem amplitude_monomial (operator : Operator K) (qubits : List Nat)
    (source : Nat → Nat) (factor : Nat → K)
    (bounded : ∀ row < Basis.size qubits.length, source row < Basis.size qubits.length)
    (entries : ∀ row < Basis.size qubits.length, ∀ column < Basis.size qubits.length,
      operator.entry row column = if column = source row then factor row else 0)
    {index : Nat} (inside : index < Basis.size n) :
    (state.applyOperator operator qubits).amplitude index =
      factor (Basis.gather qubits index) *
        state.amplitude (Basis.scatter qubits (source (Basis.gather qubits index)) index) := by
  have row := Basis.gather_lt qubits index
  have hit := bounded _ row
  rw [amplitude_applyOperator state operator qubits inside,
    Finset.sum_eq_single_of_mem _ (Finset.mem_range.2 hit)]
  · rw [entries _ row _ hit, if_pos rfl]
  · intro column member other
    rw [entries _ row _ (Finset.mem_range.1 member), if_neg other, zero_mul]

theorem applyOperator_permutation (operator : Operator K) (qubits : List Nat)
    (source : Nat → Nat)
    (bounded : ∀ row < Basis.size qubits.length, source row < Basis.size qubits.length)
    (entries : ∀ row < Basis.size qubits.length, ∀ column < Basis.size qubits.length,
      operator.entry row column = if column = source row then 1 else 0) :
    state.applyOperator operator qubits =
      state.permute fun index =>
        Basis.scatter qubits (source (Basis.gather qubits index)) index := by
  apply ext_amplitude
  intro index inside
  rw [amplitude_monomial state operator qubits source (fun _ => 1) bounded entries inside, one_mul,
    permute, amplitude_tabulate _ inside]

theorem applyOperator_diagonal (operator : Operator K) (qubits : List Nat)
    (factor : Nat → K)
    (entries : ∀ row < Basis.size qubits.length, ∀ column < Basis.size qubits.length,
      operator.entry row column = if column = row then factor row else 0) :
    state.applyOperator operator qubits =
      state.mapAmplitudes fun index value => value * factor (Basis.gather qubits index) := by
  apply ext_amplitude
  intro index inside
  rw [amplitude_monomial state operator qubits id factor (fun _ inside => inside) entries inside,
    id, Basis.scatter_gather, mapAmplitudes, amplitude_tabulate _ inside, mul_comm]

end General

open ComplexNumber
variable {n : Nat} (state : State (ComplexNumber ℝ) n)

/-- A diagonal matrix that is one except in its last place. -/
theorem applyOperator_phaseShift (operator : Operator (ComplexNumber ℝ)) (qubits : List Nat)
    (angle : ℝ)
    (entries : ∀ row < Basis.size qubits.length, ∀ column < Basis.size qubits.length,
      operator.entry row column =
        if column = row then (if row + 1 = Basis.size qubits.length then phase angle else 1) else 0) :
    state.applyOperator operator qubits = state.phaseShift qubits angle := by
  rw [applyOperator_diagonal state operator qubits _ entries, phaseShift]
  congr 1
  funext index value
  by_cases full : ∀ qubit ∈ qubits, index.testBit qubit = true
  · rw [if_pos ((Basis.gather_full qubits index).2 full), if_pos (List.all_eq_true.2 full)]
  · rw [if_neg (mt (Basis.gather_full qubits index).1 full),
      if_neg (mt List.all_eq_true.1 full), mul_one]

theorem applyOperator_controlledX (operator : Operator (ComplexNumber ℝ)) (controls : List Nat)
    (target : Nat)
    (entries : ∀ row < Basis.size (controls.length + 1),
      ∀ column < Basis.size (controls.length + 1), operator.entry row column =
        if column = Basis.invertLowest controls.length row then 1 else 0) :
    state.applyOperator operator (controls ++ [target]) = state.controlledX controls target := by
  have length : (controls ++ [target]).length = controls.length + 1 := List.length_append
  rw [applyOperator_permutation state operator _ (Basis.invertLowest controls.length)
    (by rw [length]; exact fun _ => Basis.invertLowest_lt) (by rw [length]; exact entries), controlledX]
  congr 1
  funext index
  exact Basis.scatter_controlled controls target index

theorem amplitude_pauliX (qubit : Nat) {index : Nat} (inside : index < Basis.size n) :
    (state.pauliX qubit).amplitude index = state.amplitude (Basis.flip qubit index) :=
  amplitude_tabulate _ inside

theorem pauliX_eq_controlledX (qubit : Nat) : state.pauliX qubit = state.controlledX [] qubit := rfl

theorem applyOperator_swap (first second : Nat) :
    state.applyOperator (.ofRows [[1, 0, 0, 0], [0, 0, 1, 0], [0, 1, 0, 0], [0, 0, 0, 1]])
        [first, second] =
      state.swap first second := by
  have four : Basis.size [first, second].length = 4 := rfl
  rw [applyOperator_permutation state _ _ (fun row => 2 * (row % 2) + row / 2)
    (by rw [four]; omega) ?entries, swap]
  case entries =>
    rw [four]
    intro row inRows column inColumns
    interval_cases row <;> interval_cases column <;> simp [Operator.entry_ofRows]
  congr 1
  funext index
  have low : (index.testBit second).toNat < 2 := Bool.toNat_lt _
  have exchanged : 2 * (Basis.gather [first, second] index % 2) + Basis.gather [first, second] index / 2 =
      2 * (index.testBit second).toNat + (index.testBit first).toNat := by
    simp only [Basis.gather, List.foldl_cons, List.foldl_nil]
    omega
  rw [exchanged, Basis.scatter_exchange]

/-- A matrix on one qubit mixes the amplitudes of an index and of its neighbour. -/
theorem amplitude_single (operator : Operator (ComplexNumber ℝ)) (qubit : Nat) {index : Nat}
    (inside : index < Basis.size n) :
    (state.applyOperator operator [qubit]).amplitude index =
      operator.entry (index.testBit qubit).toNat (index.testBit qubit).toNat * state.amplitude index +
        operator.entry (index.testBit qubit).toNat (!index.testBit qubit).toNat *
          state.amplitude (Basis.flip qubit index) := by
  have gathered : Basis.gather [qubit] index = (index.testBit qubit).toNat := by simp [Basis.gather]
  have own := Basis.scatter_gather [qubit] index
  have other := Basis.scatter_invert [] qubit index (by simp)
  rw [gathered] at own
  rw [List.nil_append, show Basis.gather [] index = 0 from rfl, Nat.mul_zero, Nat.zero_add,
    if_neg List.not_mem_nil] at other
  rw [amplitude_applyOperator state operator _ inside, gathered]
  change ∑ column ∈ Finset.range 2, _ = _
  rw [Finset.sum_range_succ, Finset.sum_range_one]
  -- The column of the index itself comes first or second, depending on the bit.
  cases value : index.testBit qubit with
  | false =>
    rw [value] at own other
    simp only [Bool.toNat_false, Bool.toNat_true, Bool.not_false] at own other ⊢
    rw [own, other]
  | true =>
    rw [value] at own other
    simp only [Bool.toNat_false, Bool.toNat_true, Bool.not_true] at own other ⊢
    rw [own, other, add_comm]

theorem applyOperator_identity (qubit : Nat) :
    state.applyOperator (.ofRows [[1, 0], [0, 1]]) [qubit] = state := by
  apply ext_amplitude
  intro index inside
  rw [amplitude_single state _ qubit inside]
  cases index.testBit qubit <;> simp [Operator.entry_ofRows]

theorem applyOperator_pauliY (qubit : Nat) :
    state.applyOperator (.ofRows [[0, -imaginaryUnit], [imaginaryUnit, 0]]) [qubit] =
      state.pauliY qubit := by
  apply ext_amplitude
  intro index inside
  rw [amplitude_single state _ qubit inside, pauliY, amplitude_tabulate _ inside]
  cases index.testBit qubit <;> simp [Operator.entry_ofRows]

theorem applyOperator_hadamard (qubit : Nat) :
    state.applyOperator
        (.ofRows [[ofReal Scalar.sqrtHalf, ofReal Scalar.sqrtHalf],
          [ofReal Scalar.sqrtHalf, -ofReal Scalar.sqrtHalf]]) [qubit] =
      state.hadamard qubit := by
  apply ext_amplitude
  intro index inside
  rw [amplitude_single state _ qubit inside, hadamard, amplitude_tabulate _ inside, scale_eq, sqrtHalf_eq]
  cases index.testBit qubit with
  | false => simp [Operator.entry_ofRows, mul_add]
  | true => simp [Operator.entry_ofRows, mul_add, sub_eq_neg_add]

theorem applyOperator_rotateZ (qubit : Nat) (angle : ℝ) :
    state.applyOperator (.ofRows [[phase (-angle / 2.0), 0], [0, phase (angle / 2.0)]]) [qubit] =
      state.rotateZ qubit angle := by
  apply ext_amplitude
  intro index inside
  rw [amplitude_single state _ qubit inside, rotateZ, mapAmplitudes, amplitude_tabulate _ inside]
  cases index.testBit qubit <;> simp [Operator.entry_ofRows, mul_comm]

theorem applyOperator_phase (qubit : Nat) (angle : ℝ) :
    state.applyOperator (.ofRows [[1, 0], [0, phase angle]]) [qubit] =
      state.phaseShift [qubit] angle := by
  apply applyOperator_phaseShift
  intro row inRows column inColumns
  change row < 2 at inRows
  change column < 2 at inColumns
  interval_cases row <;> interval_cases column <;> simp [Operator.entry_ofRows, Basis.size]

theorem applyOperator_x (qubit : Nat) :
    state.applyOperator (.ofRows [[0, 1], [1, 0]]) [qubit] = state.pauliX qubit := by
  rw [pauliX_eq_controlledX]
  apply applyOperator_controlledX state _ []
  intro row inRows column inColumns
  change row < 2 at inRows
  change column < 2 at inColumns
  interval_cases row <;> interval_cases column <;>
    simp [Operator.entry_ofRows, Basis.invertLowest, Basis.size]

theorem applyOperator_cnot (control target : Nat) :
    state.applyOperator (.ofRows [[1, 0, 0, 0], [0, 1, 0, 0], [0, 0, 0, 1], [0, 0, 1, 0]])
        [control, target] =
      state.controlledX [control] target := by
  apply applyOperator_controlledX state _ [control]
  intro row inRows column inColumns
  change row < 4 at inRows
  change column < 4 at inColumns
  interval_cases row <;> interval_cases column <;>
    simp [Operator.entry_ofRows, Basis.invertLowest, Basis.size]

theorem applyOperator_ccnot (first second target : Nat) :
    state.applyOperator (.tabulate 8 8 fun row column =>
        if column = (if row = 6 then 7 else if row = 7 then 6 else row) then 1 else 0)
        [first, second, target] =
      state.controlledX [first, second] target := by
  apply applyOperator_controlledX state _ [first, second]
  intro row inRows column inColumns
  change row < 8 at inRows
  change column < 8 at inColumns
  have moved : (if row = 6 then 7 else if row = 7 then 6 else row) =
      Basis.invertLowest [first, second].length row := by
    interval_cases row <;> rfl
  rw [Operator.entry_tabulate _ _ _ inRows inColumns, moved]

theorem applyOperator_csign (control target : Nat) :
    state.applyOperator (.ofRows [[1, 0, 0, 0], [0, 1, 0, 0], [0, 0, 1, 0], [0, 0, 0, -1]])
        [control, target] =
      state.phaseShift [control, target] Scalar.pi := by
  apply applyOperator_phaseShift
  intro row inRows column inColumns
  change row < 4 at inRows
  change column < 4 at inColumns
  rw [phase_pi]
  interval_cases row <;> interval_cases column <;> simp [Operator.entry_ofRows, Basis.size]

/-- Every gate acts on as many operands as it takes through its matrix. -/
theorem apply_eq_applyOperator {gate : Gate ℝ} {operands : List Nat}
    {operator : Operator (ComplexNumber ℝ)} (found : gate.operator = .ok operator)
    (arity : operands.length = gate.arity)
    (fits : Basis.size operands.length ≤ operator.rows ∧ Basis.size operands.length ≤ operator.columns)
    (inside : ∀ operand ∈ operands, operand < n) :
    state.apply ⟨gate, operands⟩ = .ok (state.applyOperator operator operands) := by
  have named {result : State (ComplexNumber ℝ) n}
      (applied : state.apply ⟨gate, operands⟩ = within operands result)
      (same : state.applyOperator operator operands = result) :
      state.apply ⟨gate, operands⟩ = .ok (state.applyOperator operator operands) := by
    rw [applied, within_ok _ inside, same]
  cases gate with
  | rx | ry | iswap | controlled | matrix => exact applyMatrix_ok state found fits inside
  | i =>
    obtain ⟨qubit, rfl⟩ := List.length_eq_one_iff.1 arity
    cases found
    rw [applyOperator_identity]
    rfl
  | x =>
    obtain ⟨qubit, rfl⟩ := List.length_eq_one_iff.1 arity
    cases found
    exact named rfl (applyOperator_x state qubit)
  | y =>
    obtain ⟨qubit, rfl⟩ := List.length_eq_one_iff.1 arity
    cases found
    exact named rfl (applyOperator_pauliY state qubit)
  | z =>
    obtain ⟨qubit, rfl⟩ := List.length_eq_one_iff.1 arity
    cases found
    have same := applyOperator_phase state qubit Scalar.pi
    rw [phase_pi] at same
    exact named rfl same
  | h =>
    obtain ⟨qubit, rfl⟩ := List.length_eq_one_iff.1 arity
    cases found
    exact named rfl (applyOperator_hadamard state qubit)
  | s =>
    obtain ⟨qubit, rfl⟩ := List.length_eq_one_iff.1 arity
    cases found
    have same := applyOperator_phase state qubit (Scalar.pi / 2.0)
    rw [phase_quarter] at same
    exact named rfl same
  | t =>
    obtain ⟨qubit, rfl⟩ := List.length_eq_one_iff.1 arity
    cases found
    exact named rfl (applyOperator_phase state qubit _)
  | ph angle =>
    obtain ⟨qubit, rfl⟩ := List.length_eq_one_iff.1 arity
    cases found
    exact named rfl (applyOperator_phase state qubit angle)
  | rz angle =>
    obtain ⟨qubit, rfl⟩ := List.length_eq_one_iff.1 arity
    cases found
    exact named rfl (applyOperator_rotateZ state qubit angle)
  | cnot =>
    obtain ⟨control, target, rfl⟩ := List.length_eq_two.1 arity
    cases found
    exact named rfl (applyOperator_cnot state control target)
  | csign =>
    obtain ⟨control, target, rfl⟩ := List.length_eq_two.1 arity
    cases found
    exact named rfl (applyOperator_csign state control target)
  | swap =>
    obtain ⟨first, second, rfl⟩ := List.length_eq_two.1 arity
    cases found
    exact named rfl (applyOperator_swap state first second)
  | ccnot =>
    obtain ⟨first, second, target, rfl⟩ := List.length_eq_three.1 arity
    cases found
    exact named rfl (applyOperator_ccnot state first second target)

/-- A gate with a rule of its own and its matrix give the same state, also where operands repeat. -/
theorem apply_eq_applyMatrix (gate : Gate ℝ) (operands : List Nat) (kernel : gate.hasKernel = true)
    (arity : operands.length = gate.arity) (inside : ∀ operand ∈ operands, operand < n) :
    ∃ result, state.apply ⟨gate, operands⟩ = .ok result ∧
      state.applyMatrix gate operands = .ok result := by
  obtain ⟨operator, found, rows, columns⟩ := gate.operator_of_hasKernel kernel
  rw [← arity] at rows columns
  refine ⟨state.applyOperator operator operands, ?_, ?_⟩
  · exact apply_eq_applyOperator state found arity ⟨rows.ge, columns.ge⟩ inside
  · exact applyMatrix_ok state found ⟨rows.ge, columns.ge⟩ inside

/-- A doubly controlled exchange whose controls are one qubit: the two states with this qubit set exchange
their amplitudes. -/
theorem apply_eq_applyMatrix_repeated :
    let state : State (ComplexNumber ℝ) 2 := tabulate 2 fun index => ⟨index, 0⟩
    ∃ result, state.apply ⟨.ccnot, [0, 0, 1]⟩ = .ok result ∧ state.applyMatrix .ccnot [0, 0, 1] = .ok result ∧
      (List.range 4).map (fun index => (result.amplitude index).re) = [0, 3, 2, 1] := by
  intro state
  obtain ⟨result, applied, matrix⟩ := apply_eq_applyMatrix state .ccnot [0, 0, 1] rfl rfl (by decide)
  have rule : state.apply ⟨.ccnot, [0, 0, 1]⟩ = .ok (state.controlledX [0, 0] 1) :=
    within_ok _ (by decide)
  obtain rfl := Except.ok.inj (rule.symm.trans applied)
  refine ⟨_, applied, matrix, ?_⟩
  let source (index : Nat) : Nat := if [0, 0].all (Basis.clear 1 index).testBit then Basis.flip 1 index else index
  have moved : ∀ index < 4, source index < 4 := by decide
  calc (List.range 4).map (fun index => ((state.controlledX [0, 0] 1).amplitude index).re)
      = ((List.range 4).map source).map (Nat.cast : Nat → ℝ) := by
        rw [List.map_map]
        refine List.map_congr_left fun index member => ?_
        have small := List.mem_range.1 member
        rw [controlledX, permute, amplitude_tabulate _ small, amplitude_tabulate _ (moved index small)]
        rfl
    _ = [0, 3, 2, 1] := by
        rw [show (List.range 4).map source = [0, 3, 2, 1] by decide]
        simp

end State
end CircuitRunner
