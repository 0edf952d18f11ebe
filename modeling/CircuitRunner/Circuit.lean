import CircuitRunner.Operation

/-! Whole circuits: register declarations, readouts and the size of the register. -/
namespace CircuitRunner

inductive CircuitError where
  | duplicateRegister (kind : RegisterKind) (name : String)
  | undefinedRegister (kind : RegisterKind) (name : String)
  | readoutIndexOutOfRange (name : String) (index length : Nat)
  | parameterCount (operation : String) (expected got : Nat)
  | notAGenericGate (operation : String)
  deriving DecidableEq, Repr

def CircuitError.message : CircuitError → String
  | .duplicateRegister kind name => s!"{kind.text} register '{name}' is declared more than once"
  | .undefinedRegister kind name => s!"{kind.text} register '{name}' is used before it is declared"
  | .readoutIndexOutOfRange name index length =>
    s!"Readout index {index} is out of range for register '{name}' of length {length}"
  | .parameterCount operation expected got =>
    s!"Operation '{operation}' expects {expected} parameters, got {got}"
  | .notAGenericGate operation => s!"Operation '{operation}' does not provide a unitary matrix"

structure Readout where
  qubit : Nat
  register : String
  index : Nat
  deriving DecidableEq, Repr

abbrev Declared := List ((RegisterKind × String) × Nat)

namespace Operation
variable {R : Type}

mutual

/-- Checks one operation against the registers declared before it. Loop bodies count
as if written once in place; conditional bodies are not looked into. -/
def validate (declared : Declared) : Operation R → Except CircuitError Declared
  | .define definition =>
    match declared.lookup (definition.kind, definition.name) with
    | some _ => .error (.duplicateRegister definition.kind definition.name)
    | none => .ok (((definition.kind, definition.name), definition.length) :: declared)
  | .measure _ readout index =>
    match declared.lookup (.bit, readout) with
    | none => .error (.undefinedRegister .bit readout)
    | some length =>
      if length ≤ index then .error (.readoutIndexOutOfRange readout index length)
      else .ok declared
  | .loop _ body => validateBody declared body
  | _ => .ok declared

def validateBody (declared : Declared) : List (Operation R) → Except CircuitError Declared
  | [] => .ok declared
  | operation :: rest =>
    match validate declared operation with
    | .error error => .error error
    | .ok declared => validateBody declared rest

end

mutual

def readouts : Operation R → List Readout
  | .measure qubit register index => [⟨qubit, register, index⟩]
  | .loop _ body => readoutsInBody body
  | _ => []

def readoutsInBody : List (Operation R) → List Readout
  | [] => []
  | operation :: rest => readouts operation ++ readoutsInBody rest

end

def highestQubit? (operation : Operation R) : Option Nat :=
  match operation.involvedQubits with
  | .some qubits => qubits.getLast?
  | .all | .none => none

end Operation

namespace Circuit
variable {R : Type}

def validate (circuit : Circuit R) : Except CircuitError Unit :=
  (Operation.validateBody [] circuit).map fun _ => ()

def definitions (circuit : Circuit R) : List Definition := circuit.filterMap Operation.definition?

def readouts (circuit : Circuit R) : List Readout := Operation.readoutsInBody circuit

def involvedQubits (circuit : Circuit R) : InvolvedQubits := Operation.involvedInBody circuit

/-- One more than the highest qubit acted on, as a 64-bit word. Operations on all
qubits do not count. -/
def numberOfQubits (circuit : Circuit R) : Nat :=
  match (circuit.filterMap Operation.highestQubit?).max? with
  | some highest => (highest + 1) % Nat.pow 2 64
  | none => 0

def filterByTag (circuit : Circuit R) (tag : String) : Circuit R :=
  circuit.filter (·.hasTag tag)

end Circuit
end CircuitRunner
