import CircuitRunner.Engine

/-! Running a job against the clock. -/
namespace CircuitRunner.Engine

def submitTimed {R : Type} (engine : Engine R) (job : Job R) :
    IO (Except EngineError (ExecutionResult R)) := do
  let started ← IO.monoMsNow
  match engine.submit job with
  | .ok result =>
    let finished ← IO.monoMsNow
    return .ok (result.withExecutionTime (finished - started))
  | .error error => return .error error

end CircuitRunner.Engine
