import CircuitRunner.ComplexNumber
import CircuitRunner.Operator

/-! The gates of an execution engine. Matrices of gates on several qubits are indexed
with the first operand as the most significant bit. -/
namespace CircuitRunner

inductive Fault where
  /-- A gate needs a parameter that was not given. -/
  | missingArgument
  /-- A gate is applied to fewer qubits than it acts on. -/
  | missingOperand
  /-- An operand lies outside the register. -/
  | operandOutOfRange
  /-- A matrix with more than one column, but not as many as rows, is controlled. -/
  | notControllable
  /-- A matrix is smaller than its operands ask for. -/
  | matrixTooSmall
  deriving DecidableEq, Repr

inductive Gate (R : Type) where
  | i
  | h
  | x
  | y
  | z
  | s
  | t
  | rx (angle : R)
  | ry (angle : R)
  | rz (angle : R)
  | ph (angle : R)
  | cnot
  | csign
  | swap
  | iswap
  | ccnot
  /-- The inner gate under one more control, which is the first operand. -/
  | controlled (inner : Gate R)
  /-- A gate without a name, given by its matrix. -/
  | matrix (arity : Nat) (operator : Operator (ComplexNumber R))

namespace Gate
variable {R : Type}

def opcode : Gate R → String
  | .i => "I"
  | .h => "H"
  | .x => "X"
  | .y => "Y"
  | .z => "Z"
  | .s => "S"
  | .t => "T"
  | .rx _ => "RX"
  | .ry _ => "RY"
  | .rz _ => "RZ"
  | .ph _ => "PH"
  | .cnot => "CNOT"
  | .csign => "CSIGN"
  | .swap => "SWAP"
  | .iswap => "ISWAP"
  | .ccnot => "CCNOT"
  | .controlled inner => "C-" ++ inner.opcode
  | .matrix .. => "Gate"

def arity : Gate R → Nat
  | .cnot | .csign | .swap | .iswap => 2
  | .ccnot => 3
  | .controlled inner => inner.arity + 1
  | .matrix arity _ => arity
  | _ => 1

def angle? : Gate R → Option R
  | .rx angle | .ry angle | .rz angle | .ph angle => some angle
  | .controlled inner => inner.angle?
  | _ => none

def text [Literal R] (gate : Gate R) : String :=
  match gate.angle? with
  | some angle => s!"{gate.opcode}({Literal.text angle})"
  | none => gate.opcode

def same [Scalar R] : Gate R → Gate R → Bool
  | .i, .i | .h, .h | .x, .x | .y, .y | .z, .z | .s, .s | .t, .t => true
  | .rx a, .rx b | .ry a, .ry b | .rz a, .rz b | .ph a, .ph b => a == b
  | .cnot, .cnot | .csign, .csign | .swap, .swap | .iswap, .iswap | .ccnot, .ccnot => true
  | .controlled inner, .controlled inner' => inner.same inner'
  | .matrix arity operator, .matrix arity' operator' => arity == arity' && operator == operator'
  | _, _ => false

instance [Scalar R] : BEq (Gate R) := ⟨same⟩

open ComplexNumber in
def rotationX [Scalar R] (angle : R) : Operator (ComplexNumber R) :=
  let c := ofReal (Scalar.cos (angle / 2.0))
  let s := ofImaginary (-Scalar.sin (angle / 2.0))
  .ofRows [[c, s], [s, c]]

open ComplexNumber in
/-- The matrix of the gate. Only control over a misshapen matrix has none. -/
def operator [Scalar R] : Gate R → Except Fault (Operator (ComplexNumber R))
  | .i => .ok (.ofRows [[1, 0], [0, 1]])
  | .h =>
    let r : ComplexNumber R := ofReal Scalar.sqrtHalf
    .ok (.ofRows [[r, r], [r, -r]])
  | .x => .ok (.ofRows [[0, 1], [1, 0]])
  | .y => .ok (.ofRows [[0, -imaginaryUnit], [imaginaryUnit, 0]])
  | .z => .ok (.ofRows [[1, 0], [0, -1]])
  | .s => .ok (.ofRows [[1, 0], [0, imaginaryUnit]])
  | .t => .ok (.ofRows [[1, 0], [0, phase (Scalar.pi / 4.0)]])
  | .rx angle => .ok (rotationX angle)
  | .ry angle =>
    let c := Scalar.cos (angle / 2.0)
    let s := Scalar.sin (angle / 2.0)
    .ok (.ofRows [[ofReal c, ofReal (-s)], [ofReal s, ofReal c]])
  | .rz angle => .ok (.ofRows [[phase (-angle / 2.0), 0], [0, phase (angle / 2.0)]])
  | .ph angle => .ok (.ofRows [[1, 0], [0, phase angle]])
  | .cnot => .ok (.ofRows [[1, 0, 0, 0], [0, 1, 0, 0], [0, 0, 0, 1], [0, 0, 1, 0]])
  | .csign => .ok (.ofRows [[1, 0, 0, 0], [0, 1, 0, 0], [0, 0, 1, 0], [0, 0, 0, -1]])
  | .swap => .ok (.ofRows [[1, 0, 0, 0], [0, 0, 1, 0], [0, 1, 0, 0], [0, 0, 0, 1]])
  | .iswap => .ok (.ofRows
      [[1, 0, 0, 0], [0, 0, imaginaryUnit, 0], [0, imaginaryUnit, 0, 0], [0, 0, 0, 1]])
  | .ccnot => .ok <| .tabulate 8 8 fun row column =>
      if column = (if row = 6 then 7 else if row = 7 then 6 else row) then 1 else 0
  | .controlled inner =>
    match inner.operator with
    | .error fault => .error fault
    | .ok operator =>
      match operator.controlled with
      | some result => .ok result
      | none => .error .notControllable
  | .matrix _ operator => .ok operator

end Gate
end CircuitRunner
