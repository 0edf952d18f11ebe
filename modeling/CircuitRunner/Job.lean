import CircuitRunner.Program

/-! Jobs for an execution engine, and the reasons why an engine refuses one. -/
namespace CircuitRunner

inductive ObservableDefect where
  | notSquare (rows columns : Nat)
  | notHermitian
  | unequalRows
  | wrongSize (numberOfQubits rows : Nat)
  /-- An expectation value is asked for and no observable is given. -/
  | missing
  | otherRegister (observableQubits programQubits : Nat)
  /-- As told by an engine. -/
  | reported (text : String)
  deriving DecidableEq, Repr

def ObservableDefect.message : ObservableDefect → String
  | .notSquare rows columns => s!"matrix must be square, got {rows}x{columns}"
  | .notHermitian => "matrix is not Hermitian"
  | .unequalRows => "matrix rows must all have the same length as the row count"
  | .wrongSize numberOfQubits rows =>
    let full := Nat.pow 2 numberOfQubits
    s!"expected a 2x2 or {full}x{full} matrix for {numberOfQubits} qubits, got {rows}x{rows}"
  | .missing => "OBS job without observable"
  | .otherRegister observableQubits programQubits =>
    s!"observable acts on {observableQubits} qubits, program has {programQubits}"
  | .reported text => text

inductive Excess where
  | observable (numberOfQubits : Nat)
  | program (numberOfQubits : Nat) (engine : String) (maxQubits : Nat)
  /-- As told by an engine. -/
  | reported (text : String)
  deriving DecidableEq, Repr

def Excess.message : Excess → String
  | .observable numberOfQubits => s!"observable over {numberOfQubits} qubits is too large"
  | .program numberOfQubits engine maxQubits =>
    s!"program uses {numberOfQubits} qubits, {engine} supports at most {maxQubits}"
  | .reported text => text

inductive EngineError where
  | invalidJobType (text : String)
  | invalidObservable (defect : ObservableDefect)
  | circuitTooLarge (excess : Excess)
  | unsupported (feature : String)
  | submissionFailed (reason : String)
  | backend (reason : String)
  /-- The program holds an instruction that cannot be carried out. -/
  | faulty (fault : Fault)
  deriving DecidableEq, Repr

def EngineError.message : EngineError → String
  | .invalidJobType text => s!"Invalid job type '{text}', expected SAMPLE or OBS"
  | .invalidObservable defect => s!"Invalid observable: {defect.message}"
  | .circuitTooLarge excess => s!"Program exceeds engine capabilities: {excess.message}"
  | .unsupported feature => s!"Unsupported feature: {feature}"
  | .submissionFailed reason => s!"Job submission failed: {reason}"
  | .backend reason => s!"Engine error: {reason}"
  | .faulty _ => "Engine error: malformed program"

inductive JobType where
  /-- Measures all qubits once per shot. -/
  | sample
  /-- Takes the expectation value of an observable. -/
  | obs
  deriving DecidableEq, Repr

namespace JobType

def text : JobType → String
  | .sample => "SAMPLE"
  | .obs => "OBS"

def ofText? : String → Option JobType
  | "SAMPLE" => some .sample
  | "OBS" => some .obs
  | _ => none

def parse (text : String) : Except EngineError JobType :=
  match ofText? text with
  | some jobType => .ok jobType
  | none => .error (.invalidJobType text)

end JobType

structure Observable (R : Type) where
  numberOfQubits : Nat
  operator : Operator (ComplexNumber R)

namespace Observable
variable {R : Type} [Scalar R]

def isHermitian (operator : Operator (ComplexNumber R)) : Bool :=
  (List.range operator.rows).all fun row => (List.range operator.columns).all fun column =>
    Scalar.less (operator.entry row column - (operator.entry column row).conjugate).norm 1e-10

/-- The observable of a matrix over the whole register, or of a matrix over one qubit that
acts on every qubit. -/
def ofOperator (numberOfQubits : Nat) (operator : Operator (ComplexNumber R)) :
    Except EngineError (Observable R) :=
  if operator.rows ≠ operator.columns then
    .error (.invalidObservable (.notSquare operator.rows operator.columns))
  else if !isHermitian operator then .error (.invalidObservable .notHermitian)
  else if 64 ≤ numberOfQubits then .error (.circuitTooLarge (.observable numberOfQubits))
  else if operator.rows = Nat.pow 2 numberOfQubits then .ok ⟨numberOfQubits, operator⟩
  else if operator.rows = 2 then .ok ⟨numberOfQubits, operator.tensorPower numberOfQubits⟩
  else .error (.invalidObservable (.wrongSize numberOfQubits operator.rows))

theorem ofOperator_ok {numberOfQubits : Nat} {operator : Operator (ComplexNumber R)} {observable : Observable R} :
    ofOperator numberOfQubits operator = .ok observable ↔
      operator.rows = operator.columns ∧ isHermitian operator = true ∧ numberOfQubits < 64 ∧
        (operator.rows = Nat.pow 2 numberOfQubits ∧ observable = ⟨numberOfQubits, operator⟩ ∨
          operator.rows ≠ Nat.pow 2 numberOfQubits ∧ operator.rows = 2 ∧
            observable = ⟨numberOfQubits, operator.tensorPower numberOfQubits⟩) := by
  unfold ofOperator
  repeat' split
  all_goals grind

theorem numberOfQubits_ofOperator {numberOfQubits : Nat} {operator : Operator (ComplexNumber R)}
    {observable : Observable R} (made : ofOperator numberOfQubits operator = .ok observable) :
    observable.numberOfQubits = numberOfQubits := by
  obtain ⟨_, _, _, ⟨_, rfl⟩ | ⟨_, _, rfl⟩⟩ := ofOperator_ok.1 made
  · rfl
  · rfl

def ofRows (numberOfQubits : Nat) (rows : List (List (ComplexNumber R))) :
    Except EngineError (Observable R) :=
  if rows.any (·.length ≠ rows.length) then .error (.invalidObservable .unequalRows)
  else ofOperator numberOfQubits (.ofRows rows)

def pauliZ (numberOfQubits : Nat) : Except EngineError (Observable R) :=
  ofOperator numberOfQubits (.ofRows [[1, 0], [0, -1]])

end Observable

/-- A program and how to run it. Zero shots ask for the exact distribution. -/
structure Job (R : Type) where
  id : String := ""
  program : Program R
  jobType : JobType
  shots : Nat
  observable : Option (Observable R)

namespace Job
variable {R : Type}

def sample (program : Program R) (shots : Nat) : Job R :=
  { program, jobType := .sample, shots, observable := none }

def expectation (program : Program R) (shots : Nat) (observable : Observable R) : Job R :=
  { program, jobType := .obs, shots, observable := some observable }

end Job
end CircuitRunner
