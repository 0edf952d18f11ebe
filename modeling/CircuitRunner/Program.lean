import CircuitRunner.Circuit
import CircuitRunner.Gate
import CircuitRunner.Assignment

/-! Engine programs: gate applications and resets on a register of fixed size. -/
namespace CircuitRunner

inductive LoweringError where
  /-- Engines have nothing for an operation with these tags. -/
  | unsupportedOperation (tags : List String)
  /-- A symbolic parameter was met and no resolver was given. -/
  | unresolvedParameter (expression : String)
  | resolution (cause : ResolutionError)
  /-- An operation has nothing for a role or a parameter name that its gate lists. -/
  | missingOperand (operation operand : String)
  | qubitOutOfRange (qubit numberOfQubits : Nat)
  | circuit (cause : CircuitError)
  /-- A gate reads a parameter that it does not list. -/
  | faulty (fault : Fault)
  deriving DecidableEq, Repr

def LoweringError.message : LoweringError → String
  | .unsupportedOperation tags =>
    let list := ", ".intercalate tags
    s!"Operation not supported by this target (tags: {list})"
  | .unresolvedParameter expression =>
    s!"Parameter '{expression}' is symbolic and no resolver was supplied"
  | .resolution cause => s!"Parameter resolution failed: {cause.message}"
  | .missingOperand operation operand => s!"Operation '{operation}' has no operand '{operand}'"
  | .qubitOutOfRange qubit numberOfQubits =>
    s!"Qubit {qubit} is out of range for a register of {numberOfQubits} qubits"
  | .circuit cause => s!"IR error: {cause.message}"
  | .faulty _ => "Malformed gate"

structure Application (R : Type) where
  gate : Gate R
  operands : List Nat

def Application.text {R : Type} [Literal R] (application : Application R) : String :=
  application.operands.foldl (fun text qubit => s!"{text} q[{qubit}]") application.gate.text

inductive Instruction (R : Type) where
  | apply (application : Application R)
  /-- Returns the listed qubits to zero. -/
  | reset (qubits : List Nat)

namespace Instruction
variable {R : Type}

def application? : Instruction R → Option (Application R)
  | .apply application => some application
  | .reset _ => none

def isReset : Instruction R → Bool
  | .apply _ => false
  | .reset _ => true

def qubits : Instruction R → List Nat
  | .apply application => application.operands
  | .reset qubits => qubits

end Instruction

def checkQubits (numberOfQubits : Nat) (qubits : List Nat) : Except LoweringError Unit :=
  match qubits.find? (numberOfQubits ≤ ·) with
  | some qubit => .error (.qubitOutOfRange qubit numberOfQubits)
  | none => .ok ()

structure Program (R : Type) where
  numberOfQubits : Nat
  instructions : List (Instruction R)

namespace Program
variable {R : Type}

def empty (numberOfQubits : Nat) : Program R := ⟨numberOfQubits, []⟩

def push (program : Program R) (instruction : Instruction R) : Except LoweringError (Program R) :=
  (checkQubits program.numberOfQubits instruction.qubits).map fun _ =>
    { program with instructions := program.instructions ++ [instruction] }

def applications (program : Program R) : List (Application R) :=
  program.instructions.filterMap Instruction.application?

def countOpcode (program : Program R) (opcode : String) : Nat :=
  program.applications.countP (·.gate.opcode == opcode)

def hasReset (program : Program R) : Bool := program.instructions.any Instruction.isReset

end Program
end CircuitRunner
