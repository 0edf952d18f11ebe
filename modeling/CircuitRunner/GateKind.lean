/-! The gates a circuit may hold, with the operands and parameters each one takes. -/
namespace CircuitRunner

inductive QubitRole where
  | qubit
  | control
  | target
  | control0
  | control1
  deriving DecidableEq, Repr

namespace QubitRole

def all : List QubitRole := [.qubit, .control, .target, .control0, .control1]

def text : QubitRole → String
  | .qubit => "Qubit"
  | .control => "Control"
  | .target => "Target"
  | .control0 => "Control0"
  | .control1 => "Control1"

def field : QubitRole → String
  | .qubit => "qubit"
  | .control => "control"
  | .target => "target"
  | .control0 => "control_0"
  | .control1 => "control_1"

end QubitRole

inductive GateKind where
  | rotateX
  | rotateY
  | rotateZ
  | hadamard
  | pauliX
  | pauliY
  | pauliZ
  | sGate
  | tGate
  | phaseShiftState1
  | identity
  | cnot
  | controlledPauliY
  | controlledPauliZ
  | swap
  | iSwap
  | controlledPhaseShift
  | toffoli
  | singleQubitGate
  | sqrtPauliX
  | invSqrtPauliX
  | phaseShiftState0
  | rotateXY
  | variableMSXX
  | molmerSorensenXX
  | xy
  | pmInteraction
  deriving DecidableEq, Repr

namespace GateKind

def all : List GateKind :=
  [.rotateX, .rotateY, .rotateZ, .hadamard, .pauliX, .pauliY, .pauliZ, .sGate, .tGate,
    .phaseShiftState1, .identity, .cnot, .controlledPauliY, .controlledPauliZ, .swap, .iSwap,
    .controlledPhaseShift, .toffoli, .singleQubitGate, .sqrtPauliX, .invSqrtPauliX,
    .phaseShiftState0, .rotateXY, .variableMSXX, .molmerSorensenXX, .xy, .pmInteraction]

def name : GateKind → String
  | .rotateX => "RotateX"
  | .rotateY => "RotateY"
  | .rotateZ => "RotateZ"
  | .hadamard => "Hadamard"
  | .pauliX => "PauliX"
  | .pauliY => "PauliY"
  | .pauliZ => "PauliZ"
  | .sGate => "SGate"
  | .tGate => "TGate"
  | .phaseShiftState1 => "PhaseShiftState1"
  | .identity => "Identity"
  | .cnot => "CNOT"
  | .controlledPauliY => "ControlledPauliY"
  | .controlledPauliZ => "ControlledPauliZ"
  | .swap => "SWAP"
  | .iSwap => "ISwap"
  | .controlledPhaseShift => "ControlledPhaseShift"
  | .toffoli => "Toffoli"
  | .singleQubitGate => "SingleQubitGate"
  | .sqrtPauliX => "SqrtPauliX"
  | .invSqrtPauliX => "InvSqrtPauliX"
  | .phaseShiftState0 => "PhaseShiftState0"
  | .rotateXY => "RotateXY"
  | .variableMSXX => "VariableMSXX"
  | .molmerSorensenXX => "MolmerSorensenXX"
  | .xy => "XY"
  | .pmInteraction => "PMInteraction"

def ofName? (name : String) : Option GateKind := all.find? (·.name == name)

/-- The operands in the order in which engines take them. -/
def roles : GateKind → List QubitRole
  | .cnot | .controlledPauliY | .controlledPauliZ | .swap | .iSwap | .controlledPhaseShift
  | .variableMSXX | .molmerSorensenXX | .xy | .pmInteraction => [.control, .target]
  | .toffoli => [.control0, .control1, .target]
  | _ => [.qubit]

def arity (kind : GateKind) : Nat := kind.roles.length

def parameterNames : GateKind → List String
  | .rotateX | .rotateY | .rotateZ | .phaseShiftState1 | .controlledPhaseShift
  | .phaseShiftState0 | .variableMSXX | .xy => ["theta"]
  | .rotateXY => ["theta", "phi"]
  | .singleQubitGate => ["alpha_r", "alpha_i", "beta_r", "beta_i", "global_phase"]
  | .pmInteraction => ["t"]
  | _ => []

def parameterCount (kind : GateKind) : Nat := kind.parameterNames.length

def isRotation : GateKind → Bool
  | .rotateX | .rotateY | .rotateZ | .phaseShiftState1 | .controlledPhaseShift
  | .phaseShiftState0 | .rotateXY | .variableMSXX | .xy => true
  | _ => false

def tags (kind : GateKind) : List String :=
  let size := match kind.arity with
    | 1 => "SingleQubitGateOperation"
    | 2 => "TwoQubitGateOperation"
    | _ => "ThreeQubitGateOperation"
  ["Operation", "GateOperation", size] ++ (if kind.isRotation then ["Rotation"] else []) ++ [kind.name]

def operandIn? : GateKind → QubitRole → List Nat → Option Nat
  | .rotateX, .qubit, [qubit] | .rotateY, .qubit, [qubit] | .rotateZ, .qubit, [qubit]
  | .hadamard, .qubit, [qubit] | .pauliX, .qubit, [qubit] | .pauliY, .qubit, [qubit]
  | .pauliZ, .qubit, [qubit] | .sGate, .qubit, [qubit] | .tGate, .qubit, [qubit]
  | .phaseShiftState1, .qubit, [qubit] | .identity, .qubit, [qubit]
  | .singleQubitGate, .qubit, [qubit] | .sqrtPauliX, .qubit, [qubit]
  | .invSqrtPauliX, .qubit, [qubit] | .phaseShiftState0, .qubit, [qubit]
  | .rotateXY, .qubit, [qubit] => some qubit
  | .cnot, .control, [control, _] | .controlledPauliY, .control, [control, _]
  | .controlledPauliZ, .control, [control, _] | .swap, .control, [control, _]
  | .iSwap, .control, [control, _] | .controlledPhaseShift, .control, [control, _]
  | .variableMSXX, .control, [control, _] | .molmerSorensenXX, .control, [control, _]
  | .xy, .control, [control, _] | .pmInteraction, .control, [control, _] => some control
  | .cnot, .target, [_, target] | .controlledPauliY, .target, [_, target]
  | .controlledPauliZ, .target, [_, target] | .swap, .target, [_, target]
  | .iSwap, .target, [_, target] | .controlledPhaseShift, .target, [_, target]
  | .variableMSXX, .target, [_, target] | .molmerSorensenXX, .target, [_, target]
  | .xy, .target, [_, target] | .pmInteraction, .target, [_, target]
  | .toffoli, .target, [_, _, target] => some target
  | .toffoli, .control0, [control0, _, _] => some control0
  | .toffoli, .control1, [_, control1, _] => some control1
  | _, _, _ => none

def named {α : Type} : GateKind → List α → List (String × α)
  | .rotateX, [theta] | .rotateY, [theta] | .rotateZ, [theta] | .phaseShiftState1, [theta]
  | .controlledPhaseShift, [theta] | .phaseShiftState0, [theta] | .variableMSXX, [theta]
  | .xy, [theta] => [("theta", theta)]
  | .rotateXY, [theta, phi] => [("theta", theta), ("phi", phi)]
  | .singleQubitGate, [alphaRe, alphaIm, betaRe, betaIm, globalPhase] =>
    [("alpha_r", alphaRe), ("alpha_i", alphaIm), ("beta_r", betaRe), ("beta_i", betaIm),
      ("global_phase", globalPhase)]
  | .pmInteraction, [time] => [("t", time)]
  | _, _ => []

end GateKind
end CircuitRunner
