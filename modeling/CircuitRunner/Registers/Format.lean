import CircuitRunner.ComplexNumber.Format
import CircuitRunner.Registers

/-! Stored form of register rows and collections. -/
namespace CircuitRunner

variable {R : Type} [Literal R]

namespace Row

def encode : Row R → Value R
  | .bits entries => .record [("Bits", .list (entries.map .bool))]
  | .floats entries => .record [("Floats", .list (entries.map .ofReal))]
  | .complexes entries => .record [("Complexes", .list (entries.map ComplexNumber.encode))]

def decode (value : Value R) : Option (Row R) := do
  match ← value.variant? with
  | ("Bits", content) => (content.listOf? Value.bool?).map .bits
  | ("Floats", content) => (content.listOf? Value.number?).map .floats
  | ("Complexes", content) => (content.listOf? ComplexNumber.decode).map .complexes
  | _ => none

end Row

namespace Registers

def encodeTable {α : Type} (entry : α → Value R) (table : Table (List (List α))) : Value R :=
  .record (table.entries.map fun (name, rows) => (name, .list (rows.map fun row => .list (row.map entry))))

def decodeTable {α : Type} (entry : Value R → Option α) : Value R → Option (Table (List (List α)))
  | .record fields => do
    let entries ← fields.mapM fun (name, rows) => do
      return (name, ← rows.listOf? (·.listOf? entry))
    return .ofList entries
  | _ => none

def encode (registers : Registers R) : Value R :=
  .record [("bits", encodeTable .bool registers.bits),
    ("floats", encodeTable .ofReal registers.floats),
    ("complexes", encodeTable ComplexNumber.encode registers.complexes)]

def decode (value : Value R) : Option (Registers R) := do
  match ← value.fields? ["bits", "floats", "complexes"] with
  | [bits, floats, complexes] =>
    return ⟨← decodeTable Value.bool? bits, ← decodeTable Value.number? floats,
      ← decodeTable ComplexNumber.decode complexes⟩
  | _ => none

end Registers
end CircuitRunner
