import CircuitRunner.Circuit
import CircuitRunner.Value

/-! Stored form of circuits: an operation is a record of one field, named for the
operation, that holds its operands and parameters. What is decoded is a tree, and the fields
of an operation are looked up in it by name. A text may also list them in their order without
names; a tree may not. -/
namespace CircuitRunner

variable {R : Type} [Literal R]

namespace Parameter

def encode : Parameter R → Value R
  | .literal value => .record [("Float", .ofReal value)]
  | .symbol expression => .record [("Str", .text expression)]

def decode (value : Value R) : Option (Parameter R) := do
  match ← value.variant? with
  | ("Float", content) => content.number?.map .literal
  | ("Str", content) => content.text?.map .symbol
  | _ => none

end Parameter

def decodeIndex (value : Value R) : Option Nat := value.word? 64

namespace GateKind

def fieldNames (kind : GateKind) : List String :=
  kind.roles.map QubitRole.field ++ kind.parameterNames

end GateKind

namespace Operation

def encodeDefinition (definition : Definition) : Value R :=
  .record [("name", .text definition.name), ("length", .ofNat definition.length),
    ("is_output", .bool definition.isOutput)]

mutual

def encode (operation : Operation R) : Value R :=
  .record [(operation.name, encodeContent operation)]

def encodeContent : Operation R → Value R
  | .gate kind operands parameters =>
    .record (kind.fieldNames.zip
      (operands.toList.map .ofNat ++ parameters.toList.map Parameter.encode))
  | .measure qubit readout index =>
    .record [("qubit", .ofNat qubit), ("readout", .text readout), ("readout_index", .ofNat index)]
  | .define definition => encodeDefinition definition
  | .activeReset qubit => .record [("qubit", .ofNat qubit)]
  | .loop repetitions body =>
    .record [("repetitions", repetitions.encode),
      ("circuit", .record [("operations", .list (encodeBody body))])]
  | .startDecomposition qubits reordering =>
    .record [("qubits", .list (qubits.map .ofNat)), ("reordering_dictionary",
      .list (reordering.map fun pair => .list [.ofNat pair.1, .ofNat pair.2]))]
  | .stopDecomposition qubits => .record [("qubits", .list (qubits.map .ofNat))]
  | .stopParallel qubits executionTime =>
    .record [("qubits", .list (qubits.map .ofNat)), ("execution_time", executionTime.encode)]
  | .globalPhase phase => .record [("phase", phase.encode)]
  | .damping qubit gateTime rate =>
    .record [("qubit", .ofNat qubit), ("gate_time", gateTime.encode), ("rate", rate.encode)]
  | .conditional register index body =>
    .record [("condition_register", .text register), ("condition_index", .ofNat index),
      ("circuit", .record [("operations", .list (encodeBody body))])]
  | .repeatedMeasurement readout count | .setMeasurements readout count =>
    .record [("readout", .text readout), ("number_measurements", .ofNat count)]

def encodeBody : List (Operation R) → List (Value R)
  | [] => []
  | operation :: rest => encode operation :: encodeBody rest

end

def decodeGate (kind : GateKind) (content : Value R) : Option (Operation R) := do
  let fields ← content.named? kind.fieldNames
  let operands ← (fields.take kind.arity).mapM decodeIndex
  let parameters ← (fields.drop kind.arity).mapM Parameter.decode
  if operandCount : operands.length = kind.arity then
    if parameterCount : parameters.length = kind.parameterCount then
      some (.gate kind ⟨operands.toArray, operandCount⟩ ⟨parameters.toArray, parameterCount⟩)
    else none
  else none

def decodeDefinition (kind : RegisterKind) (content : Value R) : Option (Operation R) := do
  match ← content.named? ["name", "length", "is_output"] with
  | [name, length, isOutput] =>
    return .define ⟨kind, ← name.text?, ← decodeIndex length, ← isOutput.bool?⟩
  | _ => none

def decodePair (value : Value R) : Option (Nat × Nat) :=
  match value with
  | .list [first, second] => do return (← decodeIndex first, ← decodeIndex second)
  | _ => none

def decodeCounted (build : String → Nat → Operation R) (content : Value R) : Option (Operation R) := do
  match ← content.named? ["readout", "number_measurements"] with
  | [readout, count] => return build (← readout.text?) (← decodeIndex count)
  | _ => none

def decodeFlat (tag : String) (content : Value R) : Option (Operation R) :=
  match tag with
  | "MeasureQubit" => do
    match ← content.named? ["qubit", "readout", "readout_index"] with
    | [qubit, readout, index] =>
      return .measure (← decodeIndex qubit) (← readout.text?) (← decodeIndex index)
    | _ => none
  | "DefinitionBit" => decodeDefinition .bit content
  | "DefinitionFloat" => decodeDefinition .float content
  | "DefinitionComplex" => decodeDefinition .complex content
  | "PragmaActiveReset" => do
    match ← content.named? ["qubit"] with
    | [qubit] => return .activeReset (← decodeIndex qubit)
    | _ => none
  | "PragmaStartDecompositionBlock" => do
    match ← content.named? ["qubits", "reordering_dictionary"] with
    | [qubits, reordering] =>
      return .startDecomposition (← qubits.listOf? decodeIndex) (← reordering.listOf? decodePair)
    | _ => none
  | "PragmaStopDecompositionBlock" => do
    match ← content.named? ["qubits"] with
    | [qubits] => return .stopDecomposition (← qubits.listOf? decodeIndex)
    | _ => none
  | "PragmaStopParallelBlock" => do
    match ← content.named? ["qubits", "execution_time"] with
    | [qubits, time] =>
      return .stopParallel (← qubits.listOf? decodeIndex) (← Parameter.decode time)
    | _ => none
  | "PragmaGlobalPhase" => do
    match ← content.named? ["phase"] with
    | [phase] => return .globalPhase (← Parameter.decode phase)
    | _ => none
  | "PragmaDamping" => do
    match ← content.named? ["qubit", "gate_time", "rate"] with
    | [qubit, time, rate] =>
      return .damping (← decodeIndex qubit) (← Parameter.decode time) (← Parameter.decode rate)
    | _ => none
  | "PragmaRepeatedMeasurement" => decodeCounted .repeatedMeasurement content
  | "PragmaSetNumberOfMeasurements" => decodeCounted .setMeasurements content
  | _ => do decodeGate (← GateKind.ofName? tag) content

mutual

def decode (value : Value R) : Option (Operation R) :=
  match value with
  | .record [(tag, content)] =>
    if tag = "PragmaLoop" then
      match _found : content.named? ["repetitions", "circuit"] with
      | some [repetitions, circuit] => do
        return .loop (← Parameter.decode repetitions) (← decodeCircuit circuit)
      | _ => none
    else if tag = "PragmaConditional" then
      match _found : content.named? ["condition_register", "condition_index", "circuit"] with
      | some [register, index, circuit] => do
        return .conditional (← register.text?) (← decodeIndex index) (← decodeCircuit circuit)
      | _ => none
    else decodeFlat tag content
  | _ => none
termination_by sizeOf value
decreasing_by
  all_goals
    have := Value.sizeOf_lt_of_mem_named circuit _found (by simp)
    simp
    omega

def decodeCircuit (value : Value R) : Option (Circuit R) :=
  match _found : value.fields? ["operations"] with
  | some [.list operations] => operations.attach.mapM fun ⟨operation, _⟩ => decode operation
  | _ => none
termination_by sizeOf value
decreasing_by
  have := Value.sizeOf_lt_of_mem_fields (.list operations) _found (by simp)
  have := List.sizeOf_lt_of_mem ‹operation ∈ operations›
  simp at *
  omega

end

end Operation

namespace Circuit

def encode (circuit : Circuit R) : Value R :=
  .record [("operations", .list (Operation.encodeBody circuit))]

def decode (value : Value R) : Option (Circuit R) := Operation.decodeCircuit value

end Circuit
end CircuitRunner
