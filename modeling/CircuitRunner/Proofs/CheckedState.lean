import CircuitRunner.Proofs.BasisIndex
import CircuitRunner.Proofs.LoweredInstruction
import CircuitRunner.State.Readout

/-! States with every access checked. An operand that is missing, an amplitude outside the register
and an entry outside a matrix are refused instead of read as nothing. On well-formed gates and on
qubits of the register the checks never fail, and the results are those without checks. -/
namespace CircuitRunner

section Reads
variable {K : Type}

def State.read {n : Nat} (state : State K n) (index : Nat) : Except Fault K :=
  if h : index < Basis.size n then .ok state.amplitudes[index] else .error .operandOutOfRange

def Operator.read (operator : Operator K) (row column : Nat) : Except Fault K :=
  if h : row < operator.rows then
    if h' : column < operator.columns then .ok operator.entries[row][column] else .error .matrixTooSmall
  else .error .matrixTooSmall

def Application.operand {R : Type} (application : Application R) (position : Nat) : Except Fault Nat :=
  if h : position < application.operands.length then .ok application.operands[position]
  else .error .missingOperand

variable [Zero K]

theorem State.read_ok {n : Nat} (state : State K n) {index : Nat} (inside : index < Basis.size n) :
    state.read index = .ok (state.amplitude index) := by
  rw [read, dif_pos inside, amplitude, dif_pos inside]

theorem Operator.read_ok (operator : Operator K) {row column : Nat} (inRows : row < operator.rows)
    (inColumns : column < operator.columns) :
    operator.read row column = .ok (operator.entry row column) := by
  rw [read, dif_pos inRows, dif_pos inColumns, entry, dif_pos inRows, dif_pos inColumns]

end Reads

namespace State

section General
variable {K : Type} {n : Nat}

def tabulateM (n : Nat) (value : Nat → Except Fault K) : Except Fault (State K n) :=
  (Vector.ofFnM fun index : Fin (Basis.size n) => value index).map State.mk

theorem tabulateM_ok {attempt : Nat → Except Fault K} {value : Nat → K}
    (each : ∀ index < Basis.size n, attempt index = .ok (value index)) :
    tabulateM n attempt = .ok (tabulate n value) := by
  have all : (fun index : Fin (Basis.size n) => attempt index) =
      fun index : Fin (Basis.size n) => (pure (value index) : Except Fault K) :=
    funext fun index => each index index.isLt
  rw [tabulateM, all, Vector.ofFnM_pure]
  rfl

def permuteChecked (source : Nat → Nat) (state : State K n) : Except Fault (State K n) :=
  tabulateM n fun index => state.read (source index)

theorem permuteChecked_ok [Zero K] {source : Nat → Nat}
    (inside : ∀ index < Basis.size n, source index < Basis.size n) (state : State K n) :
    state.permuteChecked source = .ok (state.permute source) :=
  tabulateM_ok fun index bound => state.read_ok (inside index bound)

variable [Zero K] [Add K] [Mul K]

/-- The product of a matrix row with amplitudes, where the terms have given columns and sources. -/
def productChecked (operator : Operator K) (row : Nat) (column source : Nat → Nat) (count : Nat)
    (state : State K n) : Except Fault K := do
  let terms ← (List.range count).mapM fun index => do
    let coefficient ← operator.read row (column index)
    return coefficient * (← state.read (source index))
  return accumulate terms

theorem productChecked_ok {operator : Operator K} {row : Nat} {column source : Nat → Nat} {count : Nat}
    (inRows : row < operator.rows) (inColumns : ∀ index < count, column index < operator.columns)
    (inside : ∀ index < count, source index < Basis.size n) (state : State K n) :
    state.productChecked operator row column source count =
      .ok (accumulate ((List.range count).map fun index =>
        operator.entry row (column index) * state.amplitude (source index))) := by
  have term (index : Nat) (listed : index ∈ List.range count) :
      (do
        let coefficient ← operator.read row (column index)
        return coefficient * (← state.read (source index))) =
        .ok (operator.entry row (column index) * state.amplitude (source index)) := by
    have bound := List.mem_range.1 listed
    rw [operator.read_ok inRows (inColumns index bound), state.read_ok (inside index bound)]
    rfl
  rw [productChecked, mapM_ok term]
  rfl

def applyOperatorChecked (operator : Operator K) (qubits : List Nat) (state : State K n) :
    Except Fault (State K n) :=
  tabulateM n fun index => state.productChecked operator (Basis.gather qubits index) id
    (Basis.scatter qubits · index) (Basis.size qubits.length)

theorem applyOperatorChecked_ok {operator : Operator K} {qubits : List Nat}
    (fits : Basis.size qubits.length ≤ operator.rows ∧ Basis.size qubits.length ≤ operator.columns)
    (inside : ∀ qubit ∈ qubits, qubit < n) (state : State K n) :
    state.applyOperatorChecked operator qubits = .ok (state.applyOperator operator qubits) := by
  apply tabulateM_ok
  intro index bound
  exact productChecked_ok (Nat.lt_of_lt_of_le (Basis.gather_lt qubits index) fits.1)
    (fun column listed => Nat.lt_of_lt_of_le listed fits.2)
    (fun column _ => Basis.scatter_lt inside bound column) state

end General

variable {R : Type} [Scalar R] {n : Nat}

open ComplexNumber

def pauliYChecked (qubit : Nat) (state : State (ComplexNumber R) n) :
    Except Fault (State (ComplexNumber R) n) :=
  tabulateM n fun index => do
    let other ← state.read (Basis.flip qubit index)
    return if index.testBit qubit then imaginaryUnit * other else -imaginaryUnit * other

def hadamardChecked (qubit : Nat) (state : State (ComplexNumber R) n) :
    Except Fault (State (ComplexNumber R) n) :=
  tabulateM n fun index => do
    let own ← state.read index
    let other ← state.read (Basis.flip qubit index)
    return scale (1 / Scalar.sqrt 2.0) (if index.testBit qubit then other - own else own + other)

def applyChecked (application : Application R) (state : State (ComplexNumber R) n) :
    Except Fault (State (ComplexNumber R) n) := do
  match application.gate with
  | .i => .ok state
  | .x => state.permuteChecked (Basis.flip (← application.operand 0))
  | .y => state.pauliYChecked (← application.operand 0)
  | .z => return state.phaseShift [← application.operand 0] Scalar.pi
  | .h => state.hadamardChecked (← application.operand 0)
  | .s => return state.phaseShift [← application.operand 0] (Scalar.pi / 2.0)
  | .t => return state.phaseShift [← application.operand 0] (Scalar.pi / 4.0)
  | .ph angle => return state.phaseShift [← application.operand 0] angle
  | .rz angle => return state.rotateZ (← application.operand 0) angle
  | .cnot =>
    state.permuteChecked (Basis.flipIf [← application.operand 0] (← application.operand 1))
  | .csign =>
    return state.phaseShift [← application.operand 0, ← application.operand 1] Scalar.pi
  | .swap =>
    state.permuteChecked (Basis.exchange (← application.operand 0) (← application.operand 1))
  | .ccnot =>
    state.permuteChecked (Basis.flipIf [← application.operand 0, ← application.operand 1]
      (← application.operand 2))
  | gate => state.applyOperatorChecked (← gate.operator) application.operands

def expectationChecked (operator : Operator (ComplexNumber R)) (state : State (ComplexNumber R) n) :
    Except Fault R := do
  let position := Basis.gather (List.range n)
  let support := (List.range (Basis.size n)).filter fun index => !((state.amplitude index).normSq == 0)
  let terms ← support.mapM fun row => do
    let image ← state.productChecked operator (position row) position id (Basis.size n)
    return (← state.read row).conjugate * image
  return (accumulate terms).re

theorem pauliYChecked_ok {qubit : Nat} (inside : qubit < n) (state : State (ComplexNumber R) n) :
    state.pauliYChecked qubit = .ok (state.pauliY qubit) := by
  apply tabulateM_ok
  intro index bound
  rw [state.read_ok (Basis.flip_lt inside bound)]
  rfl

theorem hadamardChecked_ok {qubit : Nat} (inside : qubit < n) (state : State (ComplexNumber R) n) :
    state.hadamardChecked qubit = .ok (state.hadamard qubit) := by
  dsimp only [hadamardChecked, hadamard]
  apply tabulateM_ok
  intro index bound
  rw [state.read_ok bound, state.read_ok (Basis.flip_lt inside bound)]
  rfl

theorem expectationChecked_ok {operator : Operator (ComplexNumber R)} (rows : operator.rows = Basis.size n)
    (columns : operator.columns = Basis.size n) (state : State (ComplexNumber R) n) :
    state.expectationChecked operator = .ok (state.expectation operator) := by
  have position (index : Nat) : Basis.gather (List.range n) index < Basis.size n := by
    simpa using Basis.gather_lt (List.range n) index
  have term (row : Nat) (listed : row ∈ (List.range (Basis.size n)).filter fun index =>
      !((state.amplitude index).normSq == 0)) :
      (do
        let image ← state.productChecked operator (Basis.gather (List.range n) row)
          (Basis.gather (List.range n)) id (Basis.size n)
        return (← state.read row).conjugate * image) =
        .ok ((state.amplitude row).conjugate * accumulate ((List.range (Basis.size n)).map fun column =>
          operator.entry (Basis.gather (List.range n) row) (Basis.gather (List.range n) column) *
            state.amplitude column)) := by
    have bound := List.mem_range.1 (List.mem_of_mem_filter listed)
    have image : state.productChecked operator (Basis.gather (List.range n) row)
        (Basis.gather (List.range n)) id (Basis.size n) = .ok _ :=
      productChecked_ok (rows ▸ position row) (fun column _ => columns ▸ position column)
        (fun _ inside => inside) state
    rw [image, state.read_ok bound]
    rfl
  simp only [expectationChecked, mapM_ok term]
  rfl

theorem applyChecked_agrees {application : Application R} (wellFormed : application.WellFormed n)
    (state : State (ComplexNumber R) n) :
    Agree (state.applyChecked application) (state.apply application) := by
  obtain ⟨gate, operands⟩ := application
  obtain ⟨arity, ⟨operator, found, rows, columns⟩, inside⟩ := wellFormed
  dsimp only at arity found rows columns inside
  have fits : Basis.size operands.length ≤ operator.rows ∧ Basis.size operands.length ≤ operator.columns := by
    rw [rows, columns, arity]
    exact ⟨Nat.le_refl _, Nat.le_refl _⟩
  cases gate with
  | rx | ry | iswap | controlled | matrix =>
    refine ⟨state.applyOperator operator operands, ?_, applyMatrix_ok state found fits inside⟩
    simp only [applyChecked, found]
    exact applyOperatorChecked_ok fits inside state
  | i => exact ⟨state, rfl, rfl⟩
  | x =>
    obtain ⟨qubit, rfl⟩ := List.length_eq_one_iff.1 arity
    exact ⟨_, permuteChecked_ok (fun _ => Basis.flip_lt (inside qubit (by simp))) state, within_ok _ inside⟩
  | y =>
    obtain ⟨qubit, rfl⟩ := List.length_eq_one_iff.1 arity
    exact ⟨_, pauliYChecked_ok (inside qubit (by simp)) state, within_ok _ inside⟩
  | h =>
    obtain ⟨qubit, rfl⟩ := List.length_eq_one_iff.1 arity
    exact ⟨_, hadamardChecked_ok (inside qubit (by simp)) state, within_ok _ inside⟩
  | z | s | t | ph | rz =>
    obtain ⟨qubit, rfl⟩ := List.length_eq_one_iff.1 arity
    exact ⟨_, rfl, within_ok _ inside⟩
  | cnot =>
    obtain ⟨control, target, rfl⟩ := List.length_eq_two.1 arity
    exact ⟨_, permuteChecked_ok (fun _ => Basis.flipIf_lt [control] (inside target (by simp))) state,
      within_ok _ inside⟩
  | csign =>
    obtain ⟨control, target, rfl⟩ := List.length_eq_two.1 arity
    exact ⟨_, rfl, within_ok _ inside⟩
  | swap =>
    obtain ⟨first, second, rfl⟩ := List.length_eq_two.1 arity
    exact ⟨_, permuteChecked_ok (fun _ => Basis.exchange_lt (inside first (by simp))
      (inside second (by simp))) state, within_ok _ inside⟩
  | ccnot =>
    obtain ⟨first, second, target, rfl⟩ := List.length_eq_three.1 arity
    exact ⟨_, permuteChecked_ok (fun _ => Basis.flipIf_lt [first, second] (inside target (by simp))) state,
      within_ok _ inside⟩

def collapseChecked (qubit : Nat) (outcome : Bool) (state : State (ComplexNumber R) n) :
    Except Fault (Option (State (ComplexNumber R) n)) :=
  let weight := state.weight qubit outcome
  if Scalar.atMost weight 0 then .ok none
  else
    let projected := (state.restrict qubit outcome).mapAmplitudes fun _ amplitude =>
      amplitude.divide (Scalar.sqrt weight)
    if outcome then (projected.permuteChecked (Basis.flip qubit)).map some else .ok (some projected)

def resetChecked (qubit : Nat) (draw : R) (state : State (ComplexNumber R) n) :
    Except Fault (State (ComplexNumber R) n) :=
  let one := Scalar.less draw (state.probabilityOne qubit)
  (state.collapseChecked qubit one).map fun collapsed => collapsed.getD (state.restrict qubit one)

theorem collapseChecked_ok {qubit : Nat} (inside : qubit < n) (outcome : Bool)
    (state : State (ComplexNumber R) n) :
    state.collapseChecked qubit outcome = .ok (state.collapse? qubit outcome) := by
  dsimp only [collapseChecked, collapse?]
  split
  · rfl
  · cases outcome with
    | false => rfl
    | true =>
      rw [if_pos rfl, permuteChecked_ok fun _ => Basis.flip_lt inside]
      rfl

theorem resetChecked_ok {qubit : Nat} (inside : qubit < n) (draw : R) (state : State (ComplexNumber R) n) :
    state.resetChecked qubit draw = .ok (state.reset qubit draw) := by
  dsimp only [resetChecked]
  rw [collapseChecked_ok inside]
  rfl

end State
end CircuitRunner
