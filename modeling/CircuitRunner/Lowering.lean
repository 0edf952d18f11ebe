import CircuitRunner.Program

/-! Lowering of circuits to engine programs: gates by a table or by their matrix, loops by unrolling,
symbolic parameters through a resolver. -/
namespace CircuitRunner

namespace GateKind
variable {R : Type} [Scalar R]

open ComplexNumber in
/-- The interaction `exp(-i angle/2 X⊗X)`. -/
def isingXX (angle : R) : Operator (ComplexNumber R) :=
  let c := ofReal (Scalar.cos (angle / 2.0))
  let s := ofImaginary (-Scalar.sin (angle / 2.0))
  .ofRows [[c, 0, 0, s], [0, c, s, 0], [0, s, c, 0], [s, 0, 0, c]]

open ComplexNumber in
/-- Mixes the two states in which exactly one qubit is set. -/
def exchange (kept moved : R) : Operator (ComplexNumber R) :=
  .ofRows [[1, 0, 0, 0], [0, ofReal kept, ofImaginary moved, 0],
    [0, ofImaginary moved, ofReal kept, 0], [0, 0, 0, 1]]

open ComplexNumber in
/-- The matrix of a gate that engines have no name for. Matrices on two qubits take the
control as the most significant bit. -/
def unitary? : (kind : GateKind) → Vector R kind.parameterCount →
    Option (Operator (ComplexNumber R))
  | .singleQubitGate, arguments =>
    let alphaRe := arguments.get ⟨0, by decide⟩
    let alphaIm := arguments.get ⟨1, by decide⟩
    let betaRe := arguments.get ⟨2, by decide⟩
    let betaIm := arguments.get ⟨3, by decide⟩
    let factor := phase (arguments.get ⟨4, by decide⟩)
    some (.ofRows [[factor * ⟨alphaRe, alphaIm⟩, factor * ⟨-betaRe, betaIm⟩],
      [factor * ⟨betaRe, betaIm⟩, factor * ⟨alphaRe, -alphaIm⟩]])
  | .sqrtPauliX, _ => some (Gate.rotationX (Scalar.pi / 2.0))
  | .invSqrtPauliX, _ => some (Gate.rotationX (-(Scalar.pi / 2.0)))
  | .phaseShiftState0, arguments =>
    some (.ofRows [[phase (arguments.get ⟨0, by decide⟩), 0], [0, 1]])
  | .rotateXY, arguments =>
    let theta := arguments.get ⟨0, by decide⟩
    let phi := arguments.get ⟨1, by decide⟩
    let c := ofReal (Scalar.cos (theta / 2.0))
    let s := ofImaginary (-Scalar.sin (theta / 2.0))
    some (.ofRows [[c, s * phase (-phi)], [s * phase phi, c]])
  | .variableMSXX, arguments => some (isingXX (arguments.get ⟨0, by decide⟩))
  | .molmerSorensenXX, _ => some (isingXX (Scalar.pi / 2.0))
  | .xy, arguments =>
    let angle := arguments.get ⟨0, by decide⟩ / 2.0
    some (exchange (Scalar.cos angle) (Scalar.sin angle))
  | .pmInteraction, arguments =>
    let time := arguments.get ⟨0, by decide⟩
    some (exchange (Scalar.cos time) (-Scalar.sin time))
  | _, _ => none

end GateKind

structure GateEntry (R : Type) where
  name : String
  /-- Reads the values of the parameters in their order. -/
  construct : List R → Except Fault (Gate R)
  /-- The operands in the order in which the engine gate takes them. -/
  qubits : List QubitRole
  parameters : List String

namespace GateEntry
variable {R : Type}

def arity (entry : GateEntry R) : Nat := entry.qubits.length

def fixed (name : String) (gate : Gate R) (qubits : List QubitRole) : GateEntry R :=
  ⟨name, fun _ => .ok gate, qubits, []⟩

def angled (name : String) (gate : R → Gate R) (qubits : List QubitRole) : GateEntry R where
  name
  construct
    | angle :: _ => .ok (gate angle)
    | [] => .error .missingArgument
  qubits
  parameters := ["theta"]

end GateEntry

def gateTable {R : Type} : List (GateEntry R) :=
  [.fixed "CNOT" .cnot [.control, .target],
    .fixed "ControlledPauliY" (.controlled .y) [.control, .target],
    .fixed "ControlledPauliZ" .csign [.control, .target],
    .angled "ControlledPhaseShift" (fun angle => .controlled (.ph angle)) [.control, .target],
    .fixed "Hadamard" .h [.qubit],
    .fixed "ISwap" .iswap [.control, .target],
    .fixed "Identity" .i [.qubit],
    .fixed "PauliX" .x [.qubit],
    .fixed "PauliY" .y [.qubit],
    .fixed "PauliZ" .z [.qubit],
    .angled "PhaseShiftState1" .ph [.qubit],
    .angled "RotateX" .rx [.qubit],
    .angled "RotateY" .ry [.qubit],
    .angled "RotateZ" .rz [.qubit],
    .fixed "SGate" .s [.qubit],
    .fixed "SWAP" .swap [.control, .target],
    .fixed "TGate" .t [.qubit],
    .fixed "Toffoli" .ccnot [.control0, .control1, .target]]

def gateNamed? {R : Type} (name : String) : Option (GateEntry R) := gateTable.find? (·.name == name)

inductive LoweringClass where
  | named (name : String)
  | genericSingleQubitGate
  | genericTwoQubitGate
  | noEffect
  | activeReset
  | repeatedBlock
  | unsupported
  deriving DecidableEq, Repr

def LoweringClass.text : LoweringClass → String
  | .named name => s!"Named(\"{name}\")"
  | .genericSingleQubitGate => "GenericSingleQubitGate"
  | .genericTwoQubitGate => "GenericTwoQubitGate"
  | .noEffect => "NoEffect"
  | .activeReset => "ActiveReset"
  | .repeatedBlock => "RepeatedBlock"
  | .unsupported => "Unsupported"

variable {R : Type} [Scalar R] [Literal R]

def Parameter.resolve (resolver : Option (Resolver R)) : Parameter R → Except LoweringError R
  | .literal value => .ok value
  | .symbol expression =>
    match resolver with
    | some resolve => (resolve expression).mapError .resolution
    | none => .error (.unresolvedParameter expression)

def repetitionCount (value : R) : Nat :=
  if Literal.isFinite value && Scalar.less 0 value then Literal.whole value else 0

def repeated {α : Type} (count : Nat) (items : List α) : List α :=
  if items.isEmpty then [] else (List.replicate count items).flatten

namespace Operation

def loweringClass (operation : Operation R) : LoweringClass :=
  match operation with
  | .gate .rotateX .. | .gate .rotateY .. | .gate .rotateZ .. | .gate .hadamard .. | .gate .pauliX ..
  | .gate .pauliY .. | .gate .pauliZ .. | .gate .sGate .. | .gate .tGate .. | .gate .phaseShiftState1 ..
  | .gate .identity .. | .gate .cnot .. | .gate .controlledPauliY .. | .gate .controlledPauliZ ..
  | .gate .swap .. | .gate .iSwap .. | .gate .controlledPhaseShift .. | .gate .toffoli .. =>
    .named operation.name
  | .gate .singleQubitGate .. | .gate .sqrtPauliX .. | .gate .invSqrtPauliX ..
  | .gate .phaseShiftState0 .. | .gate .rotateXY .. => .genericSingleQubitGate
  | .gate .variableMSXX .. | .gate .molmerSorensenXX .. | .gate .xy .. | .gate .pmInteraction .. =>
    .genericTwoQubitGate
  | .measure .. | .define _ | .startDecomposition .. | .stopDecomposition _ | .stopParallel ..
  | .globalPhase _ => .noEffect
  | .activeReset _ => .activeReset
  | .loop .. => .repeatedBlock
  | .damping .. | .conditional .. | .repeatedMeasurement .. | .setMeasurements .. => .unsupported

/-- The matrix of a generic gate for resolved parameters. The number of parameters is
checked first, for every operation. -/
def unitary (operation : Operation R) (arguments : List R) :
    Except CircuitError (Operator (ComplexNumber R)) :=
  if operation.parameters.length ≠ arguments.length then
    .error (.parameterCount operation.name operation.parameters.length arguments.length)
  else match operation with
    | .gate kind _ _ =>
      if fits : arguments.length = kind.parameterCount then
        match kind.unitary? ⟨arguments.toArray, fits⟩ with
        | some operator => .ok operator
        | none => .error (.notAGenericGate operation.name)
      else .error (.notAGenericGate operation.name)
    | _ => .error (.notAGenericGate operation.name)

def operandsIn (roles : List QubitRole) (operation : Operation R) : Except LoweringError (List Nat) :=
  roles.mapM fun role =>
    match operation.qubit? role with
    | some qubit => .ok qubit
    | none => .error (.missingOperand operation.name role.text)

def argumentsNamed (resolver : Option (Resolver R)) (names : List String) (operation : Operation R) :
    Except LoweringError (List R) :=
  names.mapM fun name =>
    match operation.parameter? name with
    | some parameter => parameter.resolve resolver
    | none => .error (.missingOperand operation.name name)

def arguments (resolver : Option (Resolver R)) (operation : Operation R) : Except LoweringError (List R) :=
  operation.parameters.mapM fun parameter => parameter.2.resolve resolver

def nativeApplication (resolver : Option (Resolver R)) (entry : GateEntry R) (operation : Operation R) :
    Except LoweringError (Application R) := do
  let arguments ← operation.argumentsNamed resolver entry.parameters
  let operands ← operation.operandsIn entry.qubits
  return ⟨← (entry.construct arguments).mapError .faulty, operands⟩

def genericApplication (resolver : Option (Resolver R)) (roles : List QubitRole) (operation : Operation R) :
    Except LoweringError (Application R) := do
  let arguments ← operation.arguments resolver
  let operator ← (operation.unitary arguments).mapError .circuit
  let operands ← operation.operandsIn roles
  return ⟨.matrix roles.length operator, operands⟩

/-- The gate application of a single operation; nothing for operations without effect on
the engine. Resets and loops need the whole circuit and are refused. -/
def application (resolver : Option (Resolver R)) (operation : Operation R) :
    Except LoweringError (Option (Application R)) :=
  match operation.loweringClass with
  | .named name =>
    match gateNamed? name with
    | some entry => (operation.nativeApplication resolver entry).map some
    | none => .error (.unsupportedOperation operation.tags)
  | .genericSingleQubitGate => (operation.genericApplication resolver [.qubit]).map some
  | .genericTwoQubitGate => (operation.genericApplication resolver [.control, .target]).map some
  | .noEffect => .ok none
  | .activeReset | .repeatedBlock | .unsupported => .error (.unsupportedOperation operation.tags)

end Operation

structure Lowering (R : Type) where
  numberOfQubits : Nat
  identityPadding : Bool := false
  resolver : Option (Resolver R) := none

namespace Lowering

def idle (lowering : Lowering R) (application : Application R) : List (Instruction R) :=
  if lowering.identityPadding then
    ((List.range lowering.numberOfQubits).filter fun qubit => !application.operands.contains qubit).map
      fun qubit => .apply ⟨.i, [qubit]⟩
  else []

def emit (lowering : Lowering R) (instruction : Instruction R) :
    Except LoweringError (List (Instruction R)) :=
  (checkQubits lowering.numberOfQubits instruction.qubits).map fun _ => [instruction]

mutual

def operation (lowering : Lowering R) : Operation R → Except LoweringError (List (Instruction R))
  | .activeReset qubit => lowering.emit (.reset [qubit])
  | .loop repetitions body => do
    match repetitionCount (← repetitions.resolve lowering.resolver) with
    | 0 => .ok []
    | count + 1 => return repeated (count + 1) (← lowering.body body)
  | other => do
    match ← other.application lowering.resolver with
    | none => .ok []
    | some application => return (← lowering.emit (.apply application)) ++ lowering.idle application

def body (lowering : Lowering R) : List (Operation R) → Except LoweringError (List (Instruction R))
  | [] => .ok []
  | operation :: rest => do return (← lowering.operation operation) ++ (← lowering.body rest)

end

def program (lowering : Lowering R) (circuit : Circuit R) : Except LoweringError (Program R) :=
  (lowering.body circuit).map fun instructions => ⟨lowering.numberOfQubits, instructions⟩

end Lowering
end CircuitRunner
