import CircuitRunner.ComplexNumber
import CircuitRunner.Decimal.Numeral

/-! Settings of a backend and their overrides by environment variables. -/
namespace CircuitRunner

structure Configuration (R : Type) where
  /-- The size of the register that programs run on. -/
  numberOfQubits : Nat := 1
  /-- Shots per job; zero asks for the exact distribution. -/
  numberOfMeasurements : Nat := 1
  /-- Looked at only when a backend is built. -/
  jobType : String := "SAMPLE"
  /-- The rows of the observable. -/
  observable : Option (List (List (ComplexNumber R))) := none
  /-- Whether idle qubits are filled with identities. -/
  identityPadding : Bool := false

inductive FileError where
  | notFound
  | other (reason : String)
  deriving DecidableEq, Repr

def FileError.message : FileError → String
  | .notFound => "No such file or directory (os error 2)"
  | .other reason => reason

inductive ConfigurationError where
  | unreadable (cause : FileError)
  | malformed
  | noQubits
  /-- The observable has this many rows and is empty or not square. -/
  | observableShape (rows : Nat)
  deriving DecidableEq, Repr

def ConfigurationError.message : ConfigurationError → String
  | .unreadable cause => s!"IO error: {cause.message}"
  | .malformed => "Parse error: malformed document"
  | .noQubits => "Validation error: number_qubits must be greater than 0"
  | .observableShape rows =>
    s!"Validation error: observable must be a non-empty square matrix, got {rows} rows"

def readUnsigned? (bound : Nat) (text : String) : Option Nat :=
  let digits := match text.toList with
    | '+' :: rest => rest
    | chars => chars
  if digits.isEmpty || !digits.all Decimal.isDigit then none
  else
    let number := Decimal.natOfDigits digits
    if number < bound then some number else none

def readBool? : String → Option Bool
  | "true" => some true
  | "false" => some false
  | _ => none

namespace Configuration
variable {R : Type}

def validate (configuration : Configuration R) : Except ConfigurationError Unit :=
  if configuration.numberOfQubits = 0 then .error .noQubits
  else match configuration.observable with
    | none => .ok ()
    | some rows =>
      if rows.isEmpty || rows.any (·.length ≠ rows.length) then .error (.observableShape rows.length)
      else .ok ()

/-- Takes over the variables that are set; values that cannot be read change nothing. -/
def override (configuration : Configuration R) (lookup : String → Option String) :
    Configuration R where
  numberOfQubits := ((lookup "QLM_NUMBER_QUBITS").bind (readUnsigned? (Nat.pow 2 64))).getD
    configuration.numberOfQubits
  numberOfMeasurements := ((lookup "QLM_NUMBER_MEASUREMENTS").bind (readUnsigned? (Nat.pow 2 32))).getD
    configuration.numberOfMeasurements
  jobType := (lookup "QLM_JOB_TYPE").getD configuration.jobType
  observable := configuration.observable
  identityPadding := ((lookup "QLM_IDENTITY_PADDING").bind readBool?).getD
    configuration.identityPadding

end Configuration
end CircuitRunner
