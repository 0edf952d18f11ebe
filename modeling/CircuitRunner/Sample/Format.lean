import CircuitRunner.Sample
import CircuitRunner.Value

/-! Stored form of samples and results. -/
namespace CircuitRunner

variable {R : Type} [Literal R]

namespace Sample

def encode : Sample R → Value R
  | .state bits probability =>
    .record [("State", .record [("bits", .list (bits.map .bool)),
      ("probability", (probability.map .ofReal).getD .null)])]
  | .expectation value => .record [("Expectation", .ofReal value)]

def decodeProbability : Value R → Option (Option R)
  | .null => some none
  | value => value.number?.map some

def decodeState : Value R → Option (Sample R)
  | .record fields => do
    let bits ← (← fields.lookup "bits").listOf? Value.bool?
    return .state bits (← decodeProbability ((fields.lookup "probability").getD .null))
  | _ => none

def decode (value : Value R) : Option (Sample R) := do
  match ← value.variant? with
  | ("State", content) => decodeState content
  | ("Expectation", content) => content.number?.map .expectation
  | _ => none

end Sample

namespace ExecutionResult

def encode (result : ExecutionResult R) : Value R :=
  .record ([("job_id", .text result.jobId), ("samples", .list (result.samples.map Sample.encode))] ++
    match result.executionTime with
    | some milliseconds => [("execution_time_ms", .ofNat milliseconds)]
    | none => [])

def decode : Value R → Option (ExecutionResult R)
  | .record fields => do
    let jobId ← (← fields.lookup "job_id").text?
    let samples ← (← fields.lookup "samples").listOf? Sample.decode
    match fields.lookup "execution_time_ms" with
    | none | some .null => return { jobId, samples }
    | some time => return { jobId, samples, executionTime := some (← time.word? 64) }
  | _ => none

end ExecutionResult
end CircuitRunner
