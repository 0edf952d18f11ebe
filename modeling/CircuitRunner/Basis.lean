/-! Indices of basis states: bit `q` of an index is the value of qubit `q`. -/
namespace CircuitRunner.Basis

def size (numberOfQubits : Nat) : Nat := Nat.pow 2 numberOfQubits

def flip (qubit index : Nat) : Nat := index ^^^ Nat.pow 2 qubit

def clear (qubit index : Nat) : Nat := if index.testBit qubit then flip qubit index else index

def clearAll (qubits : List Nat) (index : Nat) : Nat :=
  qubits.foldl (fun index qubit => clear qubit index) index

/-- The number that the listed bits form, the first one most significant. -/
def gather (qubits : List Nat) (index : Nat) : Nat :=
  qubits.foldl (fun number qubit => 2 * number + (index.testBit qubit).toNat) 0

/-- The bits that a number sets when its own bits are dealt to the listed qubits, the
most significant to the first. -/
def deal : List Nat → Nat → Nat
  | [], _ => 0
  | qubit :: rest, number => (if number.testBit rest.length then Nat.pow 2 qubit else 0) ||| deal rest number

def scatter (qubits : List Nat) (number index : Nat) : Nat := clearAll qubits index ||| deal qubits number

def bits (numberOfQubits index : Nat) : List Bool := (List.range numberOfQubits).map index.testBit

end CircuitRunner.Basis
