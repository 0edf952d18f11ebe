import CircuitRunner.ComplexNumber
import CircuitRunner.Definition
import CircuitRunner.Table

/-! Output registers: for every name the rows collected so far, apart by kind. -/
namespace CircuitRunner

inductive Row (R : Type) where
  | bits (entries : List Bool)
  | floats (entries : List R)
  | complexes (entries : List (ComplexNumber R))

namespace Row
variable {R : Type}

def zeroed [Scalar R] (kind : RegisterKind) (length : Nat) : Row R :=
  match kind with
  | .bit => .bits (List.replicate length false)
  | .float => .floats (List.replicate length 0)
  | .complex => .complexes (List.replicate length 0)

def kind : Row R → RegisterKind
  | .bits _ => .bit
  | .floats _ => .float
  | .complexes _ => .complex

def length : Row R → Nat
  | .bits entries => entries.length
  | .floats entries => entries.length
  | .complexes entries => entries.length

def setBit? (row : Row R) (index : Nat) (value : Bool) : Option (Row R) :=
  match row with
  | .bits entries => if index < entries.length then some (.bits (entries.set index value)) else none
  | _ => none

def setFloat? (row : Row R) (index : Nat) (value : R) : Option (Row R) :=
  match row with
  | .floats entries =>
    if index < entries.length then some (.floats (entries.set index value)) else none
  | _ => none

end Row

structure Registers (R : Type) where
  bits : Table (List (List Bool))
  floats : Table (List (List R))
  complexes : Table (List (List (ComplexNumber R)))

namespace Registers
variable {R : Type}

def empty : Registers R := ⟨.empty, .empty, .empty⟩

def isEmpty (registers : Registers R) : Bool :=
  registers.bits.isEmpty && registers.floats.isEmpty && registers.complexes.isEmpty

def declare (registers : Registers R) (definition : Definition) : Registers R :=
  if definition.isOutput then
    match definition.kind with
    | .bit => { registers with bits := registers.bits.insert definition.name [] }
    | .float => { registers with floats := registers.floats.insert definition.name [] }
    | .complex => { registers with complexes := registers.complexes.insert definition.name [] }
  else registers

def ofDefinitions (definitions : List Definition) : Registers R := definitions.foldl declare empty

/-- Adds a row to the register of its kind; a register that is not there stays so. -/
def push (registers : Registers R) (name : String) : Row R → Registers R
  | .bits row => { registers with bits := registers.bits.modify name (· ++ [row]) }
  | .floats row => { registers with floats := registers.floats.modify name (· ++ [row]) }
  | .complexes row => { registers with complexes := registers.complexes.modify name (· ++ [row]) }

def merge (registers other : Registers R) : Registers R where
  bits := registers.bits.merge other.bits
  floats := registers.floats.merge other.floats
  complexes := registers.complexes.merge other.complexes

end Registers
end CircuitRunner
