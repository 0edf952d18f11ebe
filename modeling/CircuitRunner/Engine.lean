import CircuitRunner.Job
import CircuitRunner.Sample

/-! Execution engines: anything that answers a job with samples. -/
namespace CircuitRunner

structure Engine (R : Type) where
  name : String
  maxQubits : Nat
  submit : Job R → Except EngineError (ExecutionResult R)

def checkJob {R : Type} (engine : String) (maxQubits : Nat) (job : Job R) : Except EngineError Unit :=
  let numberOfQubits := job.program.numberOfQubits
  if maxQubits < numberOfQubits then
    .error (.circuitTooLarge (.program numberOfQubits engine maxQubits))
  else match job.jobType, job.observable with
    | .obs, none => .error (.invalidObservable .missing)
    | .obs, some observable =>
      if observable.numberOfQubits ≠ numberOfQubits then
        .error (.invalidObservable (.otherRegister observable.numberOfQubits numberOfQubits))
      else .ok ()
    | .sample, _ => .ok ()

end CircuitRunner
