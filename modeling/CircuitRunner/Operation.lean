import CircuitRunner.Definition
import CircuitRunner.GateKind
import CircuitRunner.Parameter

/-! Circuit operations: gates, measurements, register declarations and pragmas. -/
namespace CircuitRunner

/-- One instruction of a circuit. Operands and parameters of a gate stand in the
order of its kind. Loops and conditionals hold the operations of their body. -/
inductive Operation (R : Type) where
  | gate (kind : GateKind) (operands : Vector Nat kind.arity)
      (parameters : Vector (Parameter R) kind.parameterCount)
  /-- Copies a qubit into an entry of a bit register. -/
  | measure (qubit : Nat) (readout : String) (index : Nat)
  | define (definition : Definition)
  | activeReset (qubit : Nat)
  | loop (repetitions : Parameter R) (body : List (Operation R))
  | startDecomposition (qubits : List Nat) (reordering : List (Nat × Nat))
  | stopDecomposition (qubits : List Nat)
  | stopParallel (qubits : List Nat) (executionTime : Parameter R)
  | globalPhase (phase : Parameter R)
  /-- Amplitude damping noise. -/
  | damping (qubit : Nat) (gateTime rate : Parameter R)
  /-- Runs the body only if an entry of a bit register is set. -/
  | conditional (register : String) (index : Nat) (body : List (Operation R))
  /-- Measures every qubit. -/
  | repeatedMeasurement (readout : String) (count : Nat)
  | setMeasurements (readout : String) (count : Nat)

abbrev Circuit (R : Type) := List (Operation R)

/-- The qubits an operation acts on; a listed set is ascending without repetition. -/
inductive InvolvedQubits where
  | none
  | all
  | some (qubits : List Nat)
  deriving DecidableEq, Repr

def insertAscending (qubit : Nat) : List Nat → List Nat
  | [] => [qubit]
  | head :: rest =>
    if qubit < head then qubit :: head :: rest
    else if qubit = head then head :: rest
    else head :: insertAscending qubit rest

def ascending (qubits : List Nat) : List Nat := qubits.foldr insertAscending []

def InvolvedQubits.ofOption : Option Nat → InvolvedQubits
  | .some qubit => .some [qubit]
  | .none => .none

def GateKind.involvedQubits : GateKind → List Nat → InvolvedQubits
  | .cnot, [control, target] | .controlledPauliY, [control, target]
  | .controlledPauliZ, [control, target] | .swap, [control, target] | .iSwap, [control, target]
  | .controlledPhaseShift, [control, target] | .variableMSXX, [control, target]
  | .molmerSorensenXX, [control, target] | .xy, [control, target]
  | .pmInteraction, [control, target] => .some (ascending [control, target])
  | .toffoli, [control0, control1, target] => .some (ascending [control0, control1, target])
  | single, operands => .ofOption (single.operandIn? .qubit operands)

namespace Operation
variable {R : Type}

def name : Operation R → String
  | .gate kind _ _ => kind.name
  | .measure .. => "MeasureQubit"
  | .define definition => definition.kind.definitionTag
  | .activeReset _ => "PragmaActiveReset"
  | .loop .. => "PragmaLoop"
  | .startDecomposition .. => "PragmaStartDecompositionBlock"
  | .stopDecomposition _ => "PragmaStopDecompositionBlock"
  | .stopParallel .. => "PragmaStopParallelBlock"
  | .globalPhase _ => "PragmaGlobalPhase"
  | .damping .. => "PragmaDamping"
  | .conditional .. => "PragmaConditional"
  | .repeatedMeasurement .. => "PragmaRepeatedMeasurement"
  | .setMeasurements .. => "PragmaSetNumberOfMeasurements"

def tags (operation : Operation R) : List String :=
  match operation with
  | .gate kind _ _ => kind.tags
  | .measure .. => ["Operation", "Measurement", operation.name]
  | .define _ => ["Operation", "Definition", operation.name]
  | .damping .. => ["Operation", "PragmaOperation", "PragmaNoiseOperation", operation.name]
  | .repeatedMeasurement .. | .setMeasurements .. =>
    ["Operation", "Measurement", "PragmaOperation", operation.name]
  | _ => ["Operation", "PragmaOperation", operation.name]

def hasTag (operation : Operation R) (tag : String) : Bool := operation.tags.contains tag

def qubit? : Operation R → QubitRole → Option Nat
  | .gate kind operands _, role => kind.operandIn? role operands.toList
  | .measure qubit _ _, .qubit | .activeReset qubit, .qubit | .damping qubit _ _, .qubit => some qubit
  | _, _ => none

def parameters : Operation R → List (String × Parameter R)
  | .gate kind _ values => kind.named values.toList
  | .loop repetitions _ => [("repetitions", repetitions)]
  | .stopParallel _ executionTime => [("execution_time", executionTime)]
  | .globalPhase phase => [("phase", phase)]
  | .damping _ gateTime rate => [("gate_time", gateTime), ("rate", rate)]
  | _ => []

def parameter? (operation : Operation R) (name : String) : Option (Parameter R) :=
  operation.parameters.lookup name

def definition? : Operation R → Option Definition
  | .define definition => some definition
  | _ => none

mutual

def involvedQubits : Operation R → InvolvedQubits
  | .gate kind operands _ => kind.involvedQubits operands.toList
  | .startDecomposition qubits _ | .stopDecomposition qubits | .stopParallel qubits _ =>
    .some (ascending qubits)
  | .loop _ body | .conditional _ _ body => involvedInBody body
  | .repeatedMeasurement .. => .all
  | .define _ | .globalPhase _ | .setMeasurements .. => .none
  | single => .ofOption (single.qubit? .qubit)

/-- The union over a list of operations. A union without members counts as no qubit. -/
def involvedInBody : List (Operation R) → InvolvedQubits
  | [] => .none
  | operation :: rest =>
    match involvedQubits operation, involvedInBody rest with
    | .all, _ | _, .all => .all
    | .some [], others | .none, others => others
    | .some qubits, .none => .some qubits
    | .some qubits, .some others => .some (ascending (qubits ++ others))

end

mutual

/-- Equality of operations, comparing parameter values as numbers do. -/
def same [BEq R] : Operation R → Operation R → Bool
  | .gate kind operands values, .gate kind' operands' values' =>
    kind == kind' && operands.toList == operands'.toList && values.toList == values'.toList
  | .measure qubit readout index, .measure qubit' readout' index' =>
    qubit == qubit' && readout == readout' && index == index'
  | .define definition, .define definition' => definition == definition'
  | .activeReset qubit, .activeReset qubit' => qubit == qubit'
  | .loop repetitions body, .loop repetitions' body' =>
    repetitions == repetitions' && sameBody body body'
  | .startDecomposition qubits reordering, .startDecomposition qubits' reordering' =>
    qubits == qubits' && reordering == reordering'
  | .stopDecomposition qubits, .stopDecomposition qubits' => qubits == qubits'
  | .stopParallel qubits time, .stopParallel qubits' time' => qubits == qubits' && time == time'
  | .globalPhase phase, .globalPhase phase' => phase == phase'
  | .damping qubit time rate, .damping qubit' time' rate' =>
    qubit == qubit' && time == time' && rate == rate'
  | .conditional register index body, .conditional register' index' body' =>
    register == register' && index == index' && sameBody body body'
  | .repeatedMeasurement readout count, .repeatedMeasurement readout' count' =>
    readout == readout' && count == count'
  | .setMeasurements readout count, .setMeasurements readout' count' =>
    readout == readout' && count == count'
  | _, _ => false

def sameBody [BEq R] : List (Operation R) → List (Operation R) → Bool
  | [], [] => true
  | operation :: rest, operation' :: rest' => same operation operation' && sameBody rest rest'
  | _, _ => false

end

instance [BEq R] : BEq (Operation R) := ⟨same⟩

end Operation
end CircuitRunner
