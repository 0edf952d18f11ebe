import CircuitRunner.Scalar

/-! What an engine returns for a job. -/
namespace CircuitRunner

inductive Sample (R : Type) where
  /-- A measured basis state, one bit per qubit, with its probability where the engine
  lists the whole distribution. -/
  | state (bits : List Bool) (probability : Option R)
  | expectation (value : R)

namespace Sample
variable {R : Type}

def bits? : Sample R → Option (List Bool)
  | .state bits _ => some bits
  | .expectation _ => none

def expectation? : Sample R → Option R
  | .state _ _ => none
  | .expectation value => some value

instance [BEq R] : BEq (Sample R) where
  beq
    | .state bits probability, .state bits' probability' =>
      bits == bits' && probability == probability'
    | .expectation value, .expectation value' => value == value'
    | _, _ => false

end Sample

structure ExecutionResult (R : Type) where
  jobId : String
  samples : List (Sample R)
  /-- Milliseconds taken, where known. -/
  executionTime : Option Nat := none

namespace ExecutionResult
variable {R : Type}

def withExecutionTime (result : ExecutionResult R) (milliseconds : Nat) : ExecutionResult R :=
  { result with executionTime := some milliseconds }

instance [BEq R] : BEq (ExecutionResult R) :=
  ⟨fun left right => left.jobId == right.jobId && left.samples == right.samples &&
    left.executionTime == right.executionTime⟩

end ExecutionResult
end CircuitRunner
