import CircuitRunner.ComplexNumber.Format
import CircuitRunner.Configuration

/-! Stored form of settings. -/
namespace CircuitRunner.Configuration

variable {R : Type} [Literal R]

def fieldNames : List String :=
  ["number_qubits", "number_measurements", "job_type", "observable", "apply_identity_to_idle"]

def encode (configuration : Configuration R) : Value R :=
  let observable := match configuration.observable with
    | some rows => .list (rows.map fun row => .list (row.map ComplexNumber.encode))
    | none => .null
  .record [("number_qubits", .ofNat configuration.numberOfQubits),
    ("number_measurements", .ofNat configuration.numberOfMeasurements),
    ("job_type", .text configuration.jobType),
    ("observable", observable),
    ("apply_identity_to_idle", .bool configuration.identityPadding)]

def decodeOr {α : Type} (default : α) (decode : Value R → Option α) : Option (Value R) → Option α
  | none => some default
  | some value => decode value

def decodeObservable : Value R → Option (Option (List (List (ComplexNumber R))))
  | .null => some none
  | value => (value.listOf? (·.listOf? ComplexNumber.decode)).map some

def decode (value : Value R) : Option (Configuration R) := do
  match ← value.optionalFields? fieldNames with
  | [qubits, measurements, jobType, observable, padding] =>
    return { numberOfQubits := ← decodeOr 1 (·.word? 64) qubits
             numberOfMeasurements := ← decodeOr 1 (·.word? 32) measurements
             jobType := ← decodeOr "SAMPLE" Value.text? jobType
             observable := ← decodeOr none decodeObservable observable
             identityPadding := ← decodeOr false Value.bool? padding }
  | _ => none

end CircuitRunner.Configuration
