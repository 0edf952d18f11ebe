import CircuitRunner.Basis
import CircuitRunner.Program

/-! Pure states of a register and the action of gates on them. -/
namespace CircuitRunner

structure State (K : Type) (n : Nat) where
  amplitudes : Vector K (Basis.size n)

namespace State

section General
variable {K : Type} {n : Nat} [Zero K]

def amplitude (state : State K n) (index : Nat) : K :=
  if h : index < Basis.size n then state.amplitudes[index] else 0

def tabulate (n : Nat) (value : Nat → K) : State K n := ⟨.ofFn fun index => value index⟩

theorem amplitude_tabulate (value : Nat → K) {index : Nat} (inside : index < Basis.size n) :
    (tabulate n value).amplitude index = value index := by
  simp [amplitude, tabulate, inside]

theorem ext_amplitude {first second : State K n}
    (same : ∀ index < Basis.size n, first.amplitude index = second.amplitude index) : first = second := by
  obtain ⟨first⟩ := first
  obtain ⟨second⟩ := second
  congr
  ext index inside
  simpa [amplitude, inside] using same index inside

def ground [One K] (n : Nat) : State K n := tabulate n fun index => if index = 0 then 1 else 0

/-- Renames basis states: the new amplitude of an index is the old one of its source. -/
def permute (source : Nat → Nat) (state : State K n) : State K n :=
  tabulate n fun index => state.amplitude (source index)

def mapAmplitudes (change : Nat → K → K) (state : State K n) : State K n :=
  tabulate n fun index => change index (state.amplitude index)

/-- Applies a matrix to the listed qubits, the first one most significant. -/
def applyOperator [Add K] [Mul K] (operator : Operator K) (qubits : List Nat) (state : State K n) :
    State K n :=
  tabulate n fun index =>
    let row := Basis.gather qubits index
    accumulate <| (List.range (Basis.size qubits.length)).map fun column =>
      operator.entry row column * state.amplitude (Basis.scatter qubits column index)

end General

variable {R : Type} [Scalar R] {n : Nat}

open ComplexNumber

def pauliX (qubit : Nat) (state : State (ComplexNumber R) n) : State (ComplexNumber R) n :=
  state.permute (Basis.flip qubit)

def pauliY (qubit : Nat) (state : State (ComplexNumber R) n) : State (ComplexNumber R) n :=
  tabulate n fun index =>
    let other := state.amplitude (Basis.flip qubit index)
    if index.testBit qubit then imaginaryUnit * other else -imaginaryUnit * other

def hadamard (qubit : Nat) (state : State (ComplexNumber R) n) : State (ComplexNumber R) n :=
  let factor : R := 1 / Scalar.sqrt 2.0
  tabulate n fun index =>
    let own := state.amplitude index
    let other := state.amplitude (Basis.flip qubit index)
    scale factor (if index.testBit qubit then other - own else own + other)

def phaseShift (qubits : List Nat) (angle : R) (state : State (ComplexNumber R) n) :
    State (ComplexNumber R) n :=
  state.mapAmplitudes fun index value =>
    if qubits.all index.testBit then value * phase angle else value

def rotateZ (qubit : Nat) (angle : R) (state : State (ComplexNumber R) n) :
    State (ComplexNumber R) n :=
  state.mapAmplitudes fun index value =>
    value * (if index.testBit qubit then phase (angle / 2.0) else phase (-angle / 2.0))

/-- Exchanges the two values of the target where all controls are one. A target among its
own controls is never exchanged. -/
def controlledX (controls : List Nat) (target : Nat) (state : State (ComplexNumber R) n) :
    State (ComplexNumber R) n :=
  state.permute fun index =>
    if controls.all (Basis.clear target index).testBit then Basis.flip target index else index

def swap (first second : Nat) (state : State (ComplexNumber R) n) : State (ComplexNumber R) n :=
  state.permute fun index =>
    if index.testBit first != index.testBit second then Basis.flip first (Basis.flip second index)
    else index

def within (operands : List Nat) (result : State (ComplexNumber R) n) :
    Except Fault (State (ComplexNumber R) n) :=
  if operands.all (· < n) then .ok result else .error .operandOutOfRange

omit [Scalar R] in
theorem within_ok (state : State (ComplexNumber R) n) {operands : List Nat}
    (inside : ∀ operand ∈ operands, operand < n) : within operands state = .ok state := by
  rw [within, if_pos]
  simpa using inside

def applyMatrix (gate : Gate R) (operands : List Nat) (state : State (ComplexNumber R) n) :
    Except Fault (State (ComplexNumber R) n) := do
  let operator ← gate.operator
  let size := Basis.size operands.length
  if operator.rows < size ∨ operator.columns < size then .error .matrixTooSmall
  else within operands (state.applyOperator operator operands)

theorem applyMatrix_ok (state : State (ComplexNumber R) n) {gate : Gate R}
    {operator : Operator (ComplexNumber R)} {operands : List Nat} (found : gate.operator = .ok operator)
    (fits : Basis.size operands.length ≤ operator.rows ∧ Basis.size operands.length ≤ operator.columns)
    (inside : ∀ operand ∈ operands, operand < n) :
    state.applyMatrix gate operands = .ok (state.applyOperator operator operands) := by
  rw [applyMatrix, found]
  change (if operator.rows < Basis.size operands.length ∨ operator.columns < Basis.size operands.length
    then _ else _) = _
  rw [if_neg (by omega)]
  exact within_ok _ inside

/-- Applies a gate to its operands; operands beyond those a named gate uses are ignored. -/
def apply (application : Application R) (state : State (ComplexNumber R) n) :
    Except Fault (State (ComplexNumber R) n) :=
  match application.gate, application.operands with
  | .i, _ => .ok state
  | .x, q :: _ => within [q] (state.pauliX q)
  | .y, q :: _ => within [q] (state.pauliY q)
  | .z, q :: _ => within [q] (state.phaseShift [q] Scalar.pi)
  | .h, q :: _ => within [q] (state.hadamard q)
  | .s, q :: _ => within [q] (state.phaseShift [q] (Scalar.pi / 2.0))
  | .t, q :: _ => within [q] (state.phaseShift [q] (Scalar.pi / 4.0))
  | .ph angle, q :: _ => within [q] (state.phaseShift [q] angle)
  | .rz angle, q :: _ => within [q] (state.rotateZ q angle)
  | .cnot, c :: t :: _ => within [c, t] (state.controlledX [c] t)
  | .csign, c :: t :: _ => within [c, t] (state.phaseShift [c, t] Scalar.pi)
  | .swap, p :: q :: _ => within [p, q] (state.swap p q)
  | .ccnot, c :: d :: t :: _ => within [c, d, t] (state.controlledX [c, d] t)
  | gate@(.rx _), operands | gate@(.ry _), operands | gate@.iswap, operands
  | gate@(.controlled _), operands | gate@(.matrix _ _), operands => state.applyMatrix gate operands
  | _, _ => .error .missingOperand

end State
end CircuitRunner
