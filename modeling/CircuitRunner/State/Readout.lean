import CircuitRunner.State

/-! Reading a state out: probabilities, collapse, sampling and expectation values. -/
namespace CircuitRunner.State

variable {R : Type} [Scalar R] {n : Nat}

def probabilities (state : State (ComplexNumber R) n) : List R :=
  (List.range (Basis.size n)).map fun index => (state.amplitude index).normSq

def probabilityOne (state : State (ComplexNumber R) n) (qubit : Nat) : R :=
  accumulate <| ((List.range (Basis.size n)).filter (·.testBit qubit)).map fun index =>
    (state.amplitude index).normSq

def restrict (qubit : Nat) (value : Bool) (state : State (ComplexNumber R) n) :
    State (ComplexNumber R) n :=
  state.mapAmplitudes fun index amplitude => if index.testBit qubit = value then amplitude else 0

def weight (qubit : Nat) (value : Bool) (state : State (ComplexNumber R) n) : R :=
  accumulate <| ((List.range (Basis.size n)).filter (·.testBit qubit == value)).map fun index =>
    (state.amplitude index).normSq

/-- The normalised state after a qubit was measured with the given outcome and then set to
zero; none for an outcome of zero probability. -/
def collapse? (qubit : Nat) (outcome : Bool) (state : State (ComplexNumber R) n) :
    Option (State (ComplexNumber R) n) :=
  let weight := state.weight qubit outcome
  if Scalar.atMost weight 0 then none
  else
    let norm := Scalar.sqrt weight
    let projected := (state.restrict qubit outcome).mapAmplitudes fun _ amplitude =>
      amplitude.divide norm
    some (if outcome then projected.pauliX qubit else projected)

def reset (qubit : Nat) (draw : R) (state : State (ComplexNumber R) n) : State (ComplexNumber R) n :=
  let one := Scalar.less draw (state.probabilityOne qubit)
  (state.collapse? qubit one).getD (state.restrict qubit one)

def firstAbove (bound : R) : R → Nat → List R → Option Nat
  | _, _, [] => none
  | total, index, entry :: rest =>
    if Scalar.less bound (total + entry) then some index
    else firstAbove bound (total + entry) (index + 1) rest

/-- The basis state that a draw from `[0, 1)` selects. Rounding can leave the sum of all
probabilities below the draw; the last state is taken then. -/
def sample (draw : R) (state : State (ComplexNumber R) n) : Nat :=
  (firstAbove draw 0 0 state.probabilities).getD (Basis.size n - 1)

/-- The expectation value of an observable on all qubits. Matrix indices take qubit 0 as
the most significant bit. Basis states without amplitude are skipped. -/
def expectation (operator : Operator (ComplexNumber R)) (state : State (ComplexNumber R) n) : R :=
  let position := Basis.gather (List.range n)
  let support := (List.range (Basis.size n)).filter fun index => !((state.amplitude index).normSq == 0)
  let terms := support.map fun row =>
    let image := accumulate <| (List.range (Basis.size n)).map fun column =>
      operator.entry (position row) (position column) * state.amplitude column
    (state.amplitude row).conjugate * image
  (accumulate terms).re

end CircuitRunner.State
