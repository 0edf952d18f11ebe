import CircuitRunner.Engine
import CircuitRunner.State.Readout

/-! The state vector simulator. Shots draw one basis state each; with zero shots, and for
expectation values, resets split the state into a weighted ensemble, so results are exact. -/
namespace CircuitRunner

structure Branch (R : Type) (n : Nat) where
  weight : R
  state : State (ComplexNumber R) n

namespace Simulator
variable {R : Type} [Scalar R]

/-- Branches and basis states of no more weight are dropped. -/
def cutoff : R := 1e-12

section Ensemble
variable {n : Nat}

/-- The branches after a qubit is set to zero: one per outcome of measuring it. -/
def split (qubit : Nat) (branch : Branch R n) : List (Branch R n) :=
  let one := branch.state.probabilityOne qubit
  let kept := [(false, 1 - one), (true, one)].filter fun outcome =>
    Scalar.less cutoff (branch.weight * outcome.2)
  kept.filterMap fun outcome =>
    (branch.state.collapse? qubit outcome.1).map fun state => ⟨branch.weight * outcome.2, state⟩

def evolveBranches (branches : List (Branch R n)) : Instruction R → Except Fault (List (Branch R n))
  | .apply application => branches.mapM fun branch =>
      (branch.state.apply application).map fun state => { branch with state }
  | .reset qubits => .ok (qubits.foldl (fun branches qubit => branches.flatMap (split qubit)) branches)

def mixture (branches : List (Branch R n)) : List R :=
  (List.range (Basis.size n)).map fun index =>
    accumulate (branches.map fun branch => branch.weight * (branch.state.amplitude index).normSq)

end Ensemble

def ensemble (program : Program R) : Except Fault (List (Branch R program.numberOfQubits)) :=
  program.instructions.foldlM evolveBranches [⟨1, .ground program.numberOfQubits⟩]

def distribution (program : Program R) : Except Fault (List (Sample R)) :=
  (ensemble program).map fun branches =>
    (mixture branches).zipIdx.filterMap fun (probability, index) =>
      if Scalar.less cutoff probability then
        some (.state (Basis.bits program.numberOfQubits index) (some probability))
      else none

def expectation (program : Program R) (observable : Observable R) : Except Fault (Sample R) :=
  (ensemble program).map fun branches => .expectation <|
    accumulate (branches.map fun branch => branch.weight * branch.state.expectation observable.operator)

section Sampling
variable {Seed : Type} (draw : Seed → R × Seed)

def step {n : Nat} (current : State (ComplexNumber R) n × Seed) :
    Instruction R → Except Fault (State (ComplexNumber R) n × Seed)
  | .apply application => (current.1.apply application).map fun state => (state, current.2)
  | .reset qubits => .ok <| qubits.foldl (fun (state, seed) qubit =>
      let (value, seed) := draw seed
      (state.reset qubit value, seed)) current

def measure {n : Nat} (state : State (ComplexNumber R) n) (seed : Seed) : Sample R × Seed :=
  let (value, seed) := draw seed
  (.state (Basis.bits n (state.sample value)) none, seed)

def shot (program : Program R) (seed : Seed) : Except Fault (Sample R × Seed) :=
  (program.instructions.foldlM (step draw) (State.ground program.numberOfQubits, seed)).map
    fun (state, seed) => measure draw state seed

def shots (once : Seed → Except Fault (Sample R × Seed)) :
    Nat → Seed → Except Fault (List (Sample R) × Seed)
  | 0, seed => .ok ([], seed)
  | count + 1, seed => do
    let (first, seed) ← once seed
    let (rest, seed) ← shots once count seed
    return (first :: rest, seed)

/-- One sample per shot. Without a reset every shot measures the same state, so the program
runs once. -/
def samples (program : Program R) (count : Nat) (seed : Seed) :
    Except Fault (List (Sample R) × Seed) :=
  if program.hasReset then shots (shot draw program) count seed
  else do
    let state ← program.applications.foldlM (fun state application => state.apply application)
      (State.ground program.numberOfQubits)
    shots (fun seed => .ok (measure draw state seed)) count seed

def run (seed : Seed) (job : Job R) : Except Fault (List (Sample R)) :=
  match job.jobType, job.observable with
  | .obs, some observable => (expectation job.program observable).map ([·])
  | _, _ =>
    if job.shots = 0 then distribution job.program
    else (samples draw job.program job.shots seed).map (·.1)

def engine (seed : Seed) (maxQubits : Nat := 20) : Engine R where
  name := "simulator"
  maxQubits := maxQubits
  submit job := do
    checkJob "simulator" maxQubits job
    match run draw seed job with
    | .ok samples => return { jobId := job.id, samples }
    | .error fault => .error (.faulty fault)

end Sampling
end Simulator
end CircuitRunner
