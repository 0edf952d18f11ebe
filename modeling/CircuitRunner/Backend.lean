import CircuitRunner.Configuration
import CircuitRunner.Engine
import CircuitRunner.Lowering
import CircuitRunner.Measurement

/-! The execution backend: runs circuits on an engine and folds the samples into the output
registers that the circuits declare. -/
namespace CircuitRunner

inductive BackendError where
  | unknownJobType (text : String)
  | unusableObservable (cause : EngineError)
  | configuration (cause : ConfigurationError)
  | circuit (cause : CircuitError)
  | lowering (cause : LoweringError)
  | engine (cause : EngineError)
  | evaluation (cause : EvaluationError)
  deriving DecidableEq, Repr

def BackendError.message : BackendError → String
  | .unknownJobType text =>
    s!"Invalid backend configuration: job type '{text}' is neither 'SAMPLE' nor 'OBS'"
  | .unusableObservable cause => s!"Invalid backend configuration: {cause.message}"
  | .configuration cause => cause.message
  | .circuit cause => s!"Invalid circuit: {cause.message}"
  | .lowering cause => s!"Translation failed: {cause.message}"
  | .engine cause => cause.message
  | .evaluation cause => s!"Measurement evaluation failed: {cause.message}"

inductive Warning where
  | defaultObservable
  | observableIgnored
  deriving DecidableEq, Repr

namespace Warning

def message : Warning → String
  | .defaultObservable => "OBS job type given without observable matrix, using Z on all qubits"
  | .observableIgnored => "SAMPLE job type given, ignoring the observable matrix"

def name : Warning → String
  | .defaultObservable => "DefaultObservable"
  | .observableIgnored => "ObservableIgnored"

end Warning

structure Backend (R : Type) where
  configuration : Configuration R
  jobType : JobType
  observable : Option (Observable R)
  assignment : Option (Assignment R)
  engine : Engine R
  warnings : List Warning

namespace Backend
variable {R : Type} [Scalar R] [Literal R]

def chooseObservable (jobType : JobType) (configuration : Configuration R) :
    Except EngineError (Option (Observable R) × List Warning) :=
  match jobType, configuration.observable with
  | .sample, none => .ok (none, [])
  | .sample, some _ => .ok (none, [.observableIgnored])
  | .obs, some rows =>
    (Observable.ofRows configuration.numberOfQubits rows).map fun observable => (some observable, [])
  | .obs, none =>
    (Observable.pauliZ configuration.numberOfQubits).map fun observable =>
      (some observable, [.defaultObservable])

def ofConfiguration (configuration : Configuration R) (engine : Engine R) :
    Except BackendError (Backend R) := do
  configuration.validate.mapError .configuration
  let some jobType := JobType.ofText? configuration.jobType
    | .error (.unknownJobType configuration.jobType)
  let (observable, warnings) ←
    (chooseObservable jobType configuration).mapError .unusableObservable
  return { configuration, jobType, observable, assignment := none, engine, warnings }

def withAssignment (backend : Backend R) (assignment : Assignment R) : Backend R :=
  { backend with assignment := some assignment }

def lowering (backend : Backend R) : Lowering R where
  numberOfQubits := backend.configuration.numberOfQubits
  identityPadding := backend.configuration.identityPadding
  resolver := backend.assignment

def program (backend : Backend R) (circuit : Circuit R) : Except BackendError (Program R) :=
  (backend.lowering.program circuit).mapError .lowering

def job (backend : Backend R) (program : Program R) : Job R :=
  match backend.observable with
  | some observable => .expectation program backend.configuration.numberOfMeasurements observable
  | none => .sample program backend.configuration.numberOfMeasurements

/-- The row of a bit register for one measured state: each readout of the register copies
its qubit, later ones over earlier ones. Qubits the state does not have count as zero. -/
def bitRow (readouts : List Readout) (bits : List Bool) (definition : Definition) : Row R :=
  (readouts.filter (·.register == definition.name)).foldl (fun row readout =>
    (row.setBit? readout.index (bits[readout.qubit]?.getD false)).getD row)
    (.zeroed .bit definition.length)

def stateRow (readouts : List Readout) (bits : List Bool) (definition : Definition) : Row R :=
  match definition.kind with
  | .bit => bitRow readouts bits definition
  | kind => .zeroed kind definition.length

def expectationRow (value : R) (definition : Definition) : Row R :=
  let row := Row.zeroed .float definition.length
  (row.setFloat? 0 value).getD row

/-- Adds the rows of one sample. A state gives a row to every output register, an
expectation value to the float registers only. -/
def fold (definitions : List Definition) (readouts : List Readout) (registers : Registers R) :
    Sample R → Registers R
  | .state bits _ =>
    (definitions.filter (·.isOutput)).foldl (fun registers definition =>
      registers.push definition.name (stateRow readouts bits definition)) registers
  | .expectation value =>
    (definitions.filter fun definition => definition.isOutput && definition.kind == .float).foldl
      (fun registers definition => registers.push definition.name (expectationRow value definition))
      registers

def run (backend : Backend R) (circuit : Circuit R) : Except BackendError (Registers R) := do
  circuit.validate.mapError .circuit
  let definitions := circuit.definitions
  let readouts := circuit.readouts
  (checkQubits backend.configuration.numberOfQubits (readouts.map (·.qubit))).mapError .lowering
  let program ← backend.program circuit
  let result ← (backend.engine.submit (backend.job program)).mapError .engine
  return result.samples.foldl (fold definitions readouts) (.ofDefinitions definitions)

/-- Runs every circuit of a measurement; registers of later circuits replace those of the
same name and kind. -/
def runRegisters (backend : Backend R) (measurement : Measurement R) :
    Except BackendError (Registers R) :=
  measurement.runs.foldlM (fun merged circuit => do return merged.merge (← backend.run circuit)) .empty

def runMeasurement (backend : Backend R) (measurement : Measurement R) :
    Except BackendError (Option (Table R)) := do
  (measurement.evaluate (← backend.runRegisters measurement)).mapError .evaluation

def summary (backend : Backend R) : String :=
  let settings := backend.configuration
  let job := match backend.jobType with
    | .sample => "Sample"
    | .obs => "Obs"
  let warnings := ", ".intercalate (backend.warnings.map Warning.name)
  s!"ExecutionBackend \x7b config: BackendConfig \x7b number_qubits: {settings.numberOfQubits}, " ++
    s!"number_measurements: {settings.numberOfMeasurements}, job_type: \"{settings.jobType}\", " ++
    s!"observable: None, apply_identity_to_idle: {settings.identityPadding} \x7d, " ++
    s!"job_type: {job}, engine: \"{backend.engine.name}\", warnings: [{warnings}], .. \x7d"

end Backend
end CircuitRunner
