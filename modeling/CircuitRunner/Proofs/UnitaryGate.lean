import Mathlib
import CircuitRunner.Proofs.GateIsometry

/-! The matrices of gates are unitary. A control keeps a matrix so, since it only adds an identity above it;
the named gates are made of pairs that are. Of the matrices that circuits give by parameters, only that of
two amplitudes can fail to be unitary, and does where these are not normalised. -/
namespace CircuitRunner

open ComplexNumber

namespace Basis

/-- The basis states of one more qubit, which leads: those in which it is zero, then those in which it is one. -/
def halves (count : Nat) : Fin (size count) ⊕ Fin (size count) ≃ Fin (size (count + 1)) :=
  finSumFinEquiv.trans (finCongr ((two_mul _).symm.trans (size_succ count).symm))

end Basis

namespace Operator
variable {count : Nat} {operator block : Operator (ComplexNumber ℝ)}

structure UnitaryOn (count : Nat) (operator : Operator (ComplexNumber ℝ)) : Prop where
  rows : operator.rows = Basis.size count
  columns : operator.columns = Basis.size count
  unitary : operator.matrix count ∈ Matrix.unitaryGroup (Fin (Basis.size count)) ℂ

theorem matrix_controlled (controls : Controls (Basis.size count) operator block) :
    (block.matrix (count + 1)).submatrix (Basis.halves count) (Basis.halves count) =
      Matrix.fromBlocks 1 0 0 (operator.matrix count) := by
  have upper (row : Fin (Basis.size count)) (column : Nat) (bound : column < 2 * Basis.size count) :
      (block.entry row column).toComplex = if (row : Nat) = column then 1 else 0 := by
    rw [controls.upper row row.isLt column bound, apply_ite toComplex, map_one, map_zero]
  ext row column
  rcases row with row | row <;> rcases column with column | column
  · rw [Matrix.fromBlocks_apply₁₁, Matrix.one_apply]
    refine (upper row column (by omega)).trans ?_
    simp only [Fin.ext_iff]
  · refine (upper row (Basis.size count + column) (by omega)).trans ?_
    rw [if_neg (by omega)]
    rfl
  · have left := controls.left row row.isLt column column.isLt
    exact (congrArg toComplex left).trans (map_zero _)
  · have lower := controls.lower row row.isLt column column.isLt
    exact congrArg toComplex lower

theorem Controls.unitary (controls : Controls (Basis.size count) operator block)
    (unitary : operator.matrix count ∈ Matrix.unitaryGroup (Fin (Basis.size count)) ℂ) :
    block.matrix (count + 1) ∈ Matrix.unitaryGroup (Fin (Basis.size (count + 1))) ℂ := by
  have arranged : block.matrix (count + 1) = (Matrix.fromBlocks 1 0 0 (operator.matrix count)).submatrix
      (Basis.halves count).symm (Basis.halves count).symm := by
    rw [← matrix_controlled controls, Matrix.submatrix_submatrix, Equiv.self_comp_symm, Matrix.submatrix_id_id]
  rw [Matrix.mem_unitaryGroup_iff', Matrix.star_eq_conjTranspose] at unitary ⊢
  rw [arranged, Matrix.conjTranspose_submatrix, Matrix.submatrix_mul_equiv, Matrix.fromBlocks_conjTranspose,
    Matrix.fromBlocks_multiply]
  simp only [Matrix.conjTranspose_one, Matrix.conjTranspose_zero, Matrix.mul_one, Matrix.mul_zero, Matrix.zero_mul,
    add_zero, zero_add, unitary]
  rw [Matrix.fromBlocks_one, Matrix.submatrix_one_equiv]

theorem UnitaryOn.controlled (unitary : operator.UnitaryOn count) :
    ∃ block, operator.controlled = some block ∧ block.UnitaryOn (count + 1) := by
  obtain ⟨block, made, controls⟩ := exists_controlled unitary.rows unitary.columns
  have double : 2 * Basis.size count = Basis.size (count + 1) := (Basis.size_succ count).symm
  exact ⟨block, made, controls.rows.trans double, controls.columns.trans double, controls.unitary unitary.unitary⟩

/-- A matrix that exchanges basis states. -/
theorem unitary_permutation (source : Nat → Nat)
    (bounded : ∀ row < Basis.size count, source row < Basis.size count)
    (involutive : ∀ row, source (source row) = row)
    (entries : ∀ row < Basis.size count, ∀ column < Basis.size count,
      operator.entry row column = if column = source row then 1 else 0) :
    operator.matrix count ∈ Matrix.unitaryGroup (Fin (Basis.size count)) ℂ := by
  apply matrix_unitary
  intro first firstInside second secondInside
  have partner := bounded first firstInside
  rw [Finset.sum_eq_single_of_mem (source first) (Finset.mem_range.2 partner)]
  · rw [entries _ partner _ firstInside, entries _ partner _ secondInside, involutive, if_pos rfl, conjugate_one,
      one_mul]
    simp only [eq_comm]
  · intro row member other
    have apart : first ≠ source row := fun same => other (by rw [same, involutive])
    rw [entries _ (Finset.mem_range.1 member) _ firstInside, if_neg apart, conjugate_zero, zero_mul]

theorem sum_normSq_of_unitary (unitary : operator.matrix count ∈ Matrix.unitaryGroup (Fin (Basis.size count)) ℂ)
    (column : Fin (Basis.size count)) :
    ∑ row ∈ Finset.range (Basis.size count), (operator.entry row column).normSq = 1 := by
  rw [Matrix.mem_unitaryGroup_iff'] at unitary
  have product : (star (operator.matrix count) * operator.matrix count) column column = 1 := by
    rw [unitary, Matrix.one_apply_eq]
  apply Complex.ofReal_injective
  rw [Finset.sum_range, Complex.ofReal_sum, Complex.ofReal_one, ← product, Matrix.mul_apply]
  apply Finset.sum_congr rfl
  intro row _
  exact normSq_eq _

end Operator

namespace Gate

def UnitaryLeaves : Gate ℝ → Prop
  | .controlled inner => inner.UnitaryLeaves
  | .matrix arity operator => operator.UnitaryOn arity
  | _ => True

theorem Paired.unitaryOn {gate : Gate ℝ} (paired : gate.Paired) :
    ∃ operator, gate.operator = .ok operator ∧ operator.UnitaryOn gate.arity := by
  cases paired with
  | single arity found pair =>
    rw [arity]
    exact ⟨_, found, rfl, rfl, Operator.unitary_single pair⟩
  | controlled arity found pair _ =>
    rw [arity]
    exact ⟨_, found, rfl, rfl, Operator.unitary_controlled pair⟩
  | crossed arity found outer inner =>
    rw [arity]
    exact ⟨_, found, rfl, rfl, Operator.unitary_crossed outer inner⟩
  | ccnot same =>
    subst same
    refine ⟨_, rfl, rfl, rfl, Operator.unitary_permutation
      (fun row => if row = 6 then 7 else if row = 7 then 6 else row) ?_ ?_ ?_⟩
    · intro row inRows
      change row < 8 at inRows
      change (if row = 6 then 7 else if row = 7 then 6 else row) < 8
      split_ifs <;> omega
    · intro row
      split_ifs <;> omega
    · intro row inRows column inColumns
      exact Operator.entry_tabulate 8 8 _ inRows inColumns

/-- Controls may be nested to any depth: each adds one identity. -/
theorem UnitaryLeaves.operator {gate : Gate ℝ} (leaves : gate.UnitaryLeaves) :
    ∃ operator, gate.operator = .ok operator ∧ operator.UnitaryOn gate.arity := by
  induction gate with
  | controlled inner ih =>
    obtain ⟨operator, found, unitary⟩ := ih leaves
    obtain ⟨block, made, controlled⟩ := unitary.controlled
    exact ⟨block, operator_controlled found made, controlled⟩
  | matrix arity operator => exact ⟨operator, rfl, leaves⟩
  | i => exact (GateKind.identity.paired_toGate #v[] trivial).unitaryOn
  | h => exact (GateKind.hadamard.paired_toGate #v[] trivial).unitaryOn
  | x => exact (GateKind.pauliX.paired_toGate #v[] trivial).unitaryOn
  | y => exact (GateKind.pauliY.paired_toGate #v[] trivial).unitaryOn
  | z => exact (GateKind.pauliZ.paired_toGate #v[] trivial).unitaryOn
  | s => exact (GateKind.sGate.paired_toGate #v[] trivial).unitaryOn
  | t => exact (GateKind.tGate.paired_toGate #v[] trivial).unitaryOn
  | rx angle => exact (GateKind.rotateX.paired_toGate #v[angle] trivial).unitaryOn
  | ry angle => exact (GateKind.rotateY.paired_toGate #v[angle] trivial).unitaryOn
  | rz angle => exact (GateKind.rotateZ.paired_toGate #v[angle] trivial).unitaryOn
  | ph angle => exact (GateKind.phaseShiftState1.paired_toGate #v[angle] trivial).unitaryOn
  | cnot => exact (GateKind.cnot.paired_toGate #v[] trivial).unitaryOn
  | csign => exact (GateKind.controlledPauliZ.paired_toGate #v[] trivial).unitaryOn
  | swap => exact (GateKind.swap.paired_toGate #v[] trivial).unitaryOn
  | iswap => exact (GateKind.iSwap.paired_toGate #v[] trivial).unitaryOn
  | ccnot => exact (GateKind.toffoli.paired_toGate #v[] trivial).unitaryOn

end Gate

namespace GateKind

/-- The matrix of a generic gate is that of the engine gate it becomes. -/
theorem unitary?_of_generic {kind : GateKind} (generic : kind.isNative = false)
    (arguments : Vector ℝ kind.parameterCount) :
    ∃ operator, kind.unitary? arguments = some operator ∧ (kind.toGate arguments).operator = .ok operator := by
  obtain ⟨operator, found, engine⟩ := kind.toGate_of_generic generic arguments
  refine ⟨operator, found, ?_⟩
  rw [engine]
  rfl

/-- The first column of the matrix of two amplitudes holds both of them. -/
theorem amplitudes_of_unitary {alphaRe alphaIm betaRe betaIm angle : ℝ}
    (unitary : (Operator.ofRows [[phase angle * ⟨alphaRe, alphaIm⟩, phase angle * ⟨-betaRe, betaIm⟩],
      [phase angle * ⟨betaRe, betaIm⟩, phase angle * ⟨alphaRe, -alphaIm⟩]]).UnitaryOn 1) :
    alphaRe ^ 2 + alphaIm ^ 2 + betaRe ^ 2 + betaIm ^ 2 = 1 := by
  have column := Operator.sum_normSq_of_unitary unitary.unitary (0 : Fin 2)
  change ∑ row ∈ Finset.range 2, _ = _ at column
  rw [Finset.sum_range_succ, Finset.sum_range_one] at column
  change (phase angle * ⟨alphaRe, alphaIm⟩).normSq + (phase angle * ⟨betaRe, betaIm⟩).normSq = 1 at column
  rw [normSq_mul, normSq_mul, normSq_phase, one_mul, one_mul] at column
  simp only [normSq] at column
  linarith

theorem normalised_of_unitary {kind : GateKind} {arguments : Vector ℝ kind.parameterCount}
    {operator : Operator (ComplexNumber ℝ)} (found : kind.unitary? arguments = some operator)
    (unitary : operator.UnitaryOn kind.arity) : kind.Normalised arguments := by
  unfold Normalised
  split
  · cases found
    exact amplitudes_of_unitary unitary
  · trivial

end GateKind

/-- The matrix of every gate whose own matrices are unitary has a row and a column for each basis state of its
qubits and is unitary, under any number of controls. The matrix of a generic gate of a circuit has this size
for all parameters, and is unitary exactly where two amplitudes that make it up have norm one. -/
theorem Gate.operator_unitary :
    (∀ gate : Gate ℝ, gate.UnitaryLeaves →
      ∃ operator, gate.operator = .ok operator ∧ operator.UnitaryOn gate.arity) ∧
    ∀ (kind : GateKind) (operands : Vector Nat kind.arity) (parameters : Vector (Parameter ℝ) kind.parameterCount)
      (arguments : Vector ℝ kind.parameterCount), kind.isNative = false →
      ∃ operator, (Operation.gate kind operands parameters).unitary arguments.toList = .ok operator ∧
        operator.rows = Basis.size kind.arity ∧ operator.columns = Basis.size kind.arity ∧
        (operator.UnitaryOn kind.arity ↔ kind.Normalised arguments) := by
  refine ⟨fun gate leaves => leaves.operator, fun kind operands parameters arguments generic => ?_⟩
  obtain ⟨operator, found, engine⟩ := GateKind.unitary?_of_generic generic arguments
  obtain ⟨other, same, rows, columns⟩ := kind.operator_toGate arguments
  cases engine.symm.trans same
  refine ⟨operator, Operation.unitary_gate found operands parameters, rows, columns, ?_, fun normalised => ?_⟩
  · exact GateKind.normalised_of_unitary found
  · obtain ⟨other, same, unitary⟩ := (kind.paired_toGate arguments normalised).unitaryOn
    cases engine.symm.trans same
    rw [kind.arity_toGate] at unitary
    exact unitary

/-- A matrix under two controls, and two amplitudes that are normalised and that are not. -/
theorem Gate.operator_unitary_nested :
    let rotation : Operator (ComplexNumber ℝ) := .ofRows [[ofReal (3 / 5), ofImaginary (4 / 5)],
      [ofImaginary (4 / 5), ofReal (3 / 5)]]
    (∃ operator, (Gate.controlled (.controlled (.matrix 1 rotation))).operator = .ok operator ∧
      operator.UnitaryOn 3) ∧
    (∃ operator, (Operation.gate .singleQubitGate #v[0] (#v[3 / 5, 0, 0, 4 / 5, 1].map .literal)).unitary
      [3 / 5, 0, 0, 4 / 5, 1] = .ok operator ∧ operator.UnitaryOn 1) ∧
    ∃ operator, (Operation.gate .singleQubitGate #v[0] (#v[1, 0, 0, 1, 1].map .literal)).unitary
      [1, 0, 0, 1, 1] = .ok operator ∧ operator.rows = 2 ∧ ¬operator.UnitaryOn 1 := by
  intro rotation
  obtain ⟨named, generic⟩ := operator_unitary
  refine ⟨?_, ?_, ?_⟩
  · apply named (.controlled (.controlled (.matrix 1 rotation)))
    exact ⟨rfl, rfl, Operator.unitary_single (.rotation (by norm_num))⟩
  · obtain ⟨operator, made, _, _, exactly⟩ := generic .singleQubitGate #v[0]
      (#v[3 / 5, 0, 0, 4 / 5, 1].map .literal)
      #v[3 / 5, 0, 0, 4 / 5, 1] rfl
    refine ⟨operator, made, exactly.2 ?_⟩
    change ((3 : ℝ) / 5) ^ 2 + 0 ^ 2 + 0 ^ 2 + (4 / 5) ^ 2 = 1
    norm_num
  · obtain ⟨operator, made, rows, _, exactly⟩ := generic .singleQubitGate #v[0] (#v[1, 0, 0, 1, 1].map .literal)
      #v[1, 0, 0, 1, 1] rfl
    refine ⟨operator, made, rows, fun unitary => ?_⟩
    have normalised : (1 : ℝ) ^ 2 + 0 ^ 2 + 0 ^ 2 + 1 ^ 2 = 1 := exactly.1 unitary
    norm_num at normalised

end CircuitRunner
