import CircuitRunner.Double
import CircuitRunner.Proofs.CheckedState
import CircuitRunner.RandomSource
import CircuitRunner.Simulator

/-! Runs with every access checked. The programs of circuits pass all checks in each mode of the
simulator, so a run without them reads nothing outside its operands, its register or a matrix. -/
namespace CircuitRunner

namespace Simulator
variable {R : Type} [Scalar R]

section Ensemble
variable {n : Nat}

def splitChecked (qubit : Nat) (branch : Branch R n) : Except Fault (List (Branch R n)) := do
  let one := branch.state.probabilityOne qubit
  let kept := [(false, 1 - one), (true, one)].filter fun outcome =>
    Scalar.less cutoff (branch.weight * outcome.2)
  let branches ← kept.mapM fun outcome =>
    (branch.state.collapseChecked qubit outcome.1).map (·.map (Branch.mk (branch.weight * outcome.2)))
  return branches.filterMap id

def evolveBranchesChecked (branches : List (Branch R n)) :
    Instruction R → Except Fault (List (Branch R n))
  | .apply application => branches.mapM fun branch =>
      (branch.state.applyChecked application).map fun state => { branch with state }
  | .reset qubits => qubits.foldlM (fun branches qubit =>
      (branches.mapM (splitChecked qubit)).map List.flatten) branches

theorem splitChecked_ok {qubit : Nat} (inside : qubit < n) (branch : Branch R n) :
    splitChecked qubit branch = .ok (split qubit branch) := by
  have outcomes (outcome : Bool × R) :
      (branch.state.collapseChecked qubit outcome.1).map
          (·.map (Branch.mk (branch.weight * outcome.2))) =
        .ok ((branch.state.collapse? qubit outcome.1).map (Branch.mk (branch.weight * outcome.2))) := by
    rw [State.collapseChecked_ok inside]
    rfl
  dsimp only [splitChecked, split]
  rw [mapM_ok fun outcome _ => outcomes outcome]
  change Except.ok (List.filterMap id (List.map _ _)) = _
  rw [List.filterMap_map]
  rfl

theorem evolveBranchesChecked_agrees {instruction : Instruction R} (wellFormed : instruction.WellFormed n)
    (branches : List (Branch R n)) :
    Agree (evolveBranchesChecked branches instruction) (evolveBranches branches instruction) := by
  cases instruction with
  | apply application =>
    exact .mapM fun branch _ => (State.applyChecked_agrees wellFormed branch.state).map _
  | reset qubits =>
    refine .of_ok (foldlM_ok (fun qubit listed branches => ?_) branches) rfl
    rw [mapM_ok fun branch _ => splitChecked_ok (wellFormed qubit listed) branch]
    rfl

end Ensemble

def ensembleChecked (program : Program R) : Except Fault (List (Branch R program.numberOfQubits)) :=
  program.instructions.foldlM evolveBranchesChecked [⟨1, .ground program.numberOfQubits⟩]

def distributionChecked (program : Program R) : Except Fault (List (Sample R)) :=
  (ensembleChecked program).map fun branches =>
    (mixture branches).zipIdx.filterMap fun (probability, index) =>
      if Scalar.less cutoff probability then
        some (.state (Basis.bits program.numberOfQubits index) (some probability))
      else none

def expectationChecked (program : Program R) (observable : Observable R) : Except Fault (Sample R) := do
  let branches ← ensembleChecked program
  let values ← branches.mapM fun branch =>
    (branch.state.expectationChecked observable.operator).map (branch.weight * ·)
  return .expectation (accumulate values)

section Sampling
variable {Seed : Type} (draw : Seed → R × Seed)

def stepChecked {n : Nat} (current : State (ComplexNumber R) n × Seed) :
    Instruction R → Except Fault (State (ComplexNumber R) n × Seed)
  | .apply application => (current.1.applyChecked application).map fun state => (state, current.2)
  | .reset qubits => qubits.foldlM (fun (state, seed) qubit =>
      let (value, seed) := draw seed
      (state.resetChecked qubit value).map fun state => (state, seed)) current

def shotChecked (program : Program R) (seed : Seed) : Except Fault (Sample R × Seed) :=
  (program.instructions.foldlM (stepChecked draw) (State.ground program.numberOfQubits, seed)).map
    fun (state, seed) => measure draw state seed

def samplesChecked (program : Program R) (count : Nat) (seed : Seed) :
    Except Fault (List (Sample R) × Seed) :=
  if program.hasReset then shots (shotChecked draw program) count seed
  else do
    let state ← program.applications.foldlM (fun state application => state.applyChecked application)
      (State.ground program.numberOfQubits)
    shots (fun seed => .ok (measure draw state seed)) count seed

def runChecked (seed : Seed) (job : Job R) : Except Fault (List (Sample R)) :=
  match job.jobType, job.observable with
  | .obs, some observable => (expectationChecked job.program observable).map ([·])
  | _, _ =>
    if job.shots = 0 then distributionChecked job.program
    else (samplesChecked draw job.program job.shots seed).map (·.1)

end Sampling

section Agreement
variable {program : Program R}
  (wellFormed : ∀ instruction ∈ program.instructions, instruction.WellFormed program.numberOfQubits)
include wellFormed

theorem ensembleChecked_agrees : Agree (ensembleChecked program) (ensemble program) :=
  .foldlM (fun instruction member => evolveBranchesChecked_agrees (wellFormed instruction member)) _

theorem distributionChecked_agrees : Agree (distributionChecked program) (distribution program) :=
  (ensembleChecked_agrees wellFormed).map _

theorem expectationChecked_agrees {observable : Observable R}
    (rows : observable.operator.rows = Basis.size program.numberOfQubits)
    (columns : observable.operator.columns = Basis.size program.numberOfQubits) :
    Agree (expectationChecked program observable) (expectation program observable) := by
  obtain ⟨branches, checked, evolved⟩ := ensembleChecked_agrees wellFormed
  have value (branch : Branch R program.numberOfQubits) :
      (branch.state.expectationChecked observable.operator).map (branch.weight * ·) =
        .ok (branch.weight * branch.state.expectation observable.operator) := by
    rw [State.expectationChecked_ok rows columns]
    rfl
  have values : branches.mapM (fun branch : Branch R program.numberOfQubits =>
      (branch.state.expectationChecked observable.operator).map (branch.weight * ·)) = .ok _ :=
    mapM_ok fun branch _ => value branch
  refine ⟨.expectation (accumulate (branches.map fun branch =>
    branch.weight * branch.state.expectation observable.operator)), ?_, ?_⟩
  · simp only [expectationChecked, checked, bind, Except.bind, values]
    rfl
  · rw [expectation, evolved]
    rfl

variable {Seed : Type} (draw : Seed → R × Seed)

omit wellFormed in
theorem stepChecked_agrees {n : Nat} {instruction : Instruction R} (wellFormed : instruction.WellFormed n)
    (current : State (ComplexNumber R) n × Seed) :
    Agree (stepChecked draw current instruction) (step draw current instruction) := by
  cases instruction with
  | apply application => exact (State.applyChecked_agrees wellFormed current.1).map _
  | reset qubits =>
    refine .of_ok (foldlM_ok (fun qubit listed current => ?_) current) rfl
    dsimp only
    rw [State.resetChecked_ok (wellFormed qubit listed)]
    rfl

theorem shotChecked_agrees (seed : Seed) :
    Agree (shotChecked draw program seed) (shot draw program seed) :=
  (Agree.foldlM (fun instruction member => stepChecked_agrees draw (wellFormed instruction member)) _).map _

omit [Scalar R] wellFormed in
theorem shots_agree {first second : Seed → Except Fault (Sample R × Seed)}
    (once : ∀ seed, Agree (first seed) (second seed)) (count : Nat) (seed : Seed) :
    Agree (shots first count seed) (shots second count seed) := by
  induction count generalizing seed with
  | zero => exact ⟨([], seed), rfl, rfl⟩
  | succ count ih =>
    exact (once seed).bind fun (sample, seed) => (ih seed).bind fun (rest, seed) =>
      ⟨(sample :: rest, seed), rfl, rfl⟩

theorem samplesChecked_agrees (count : Nat) (seed : Seed) :
    Agree (samplesChecked draw program count seed) (samples draw program count seed) := by
  unfold samplesChecked samples
  split
  · exact shots_agree (shotChecked_agrees wellFormed draw) count seed
  · have evolved : Agree
        (program.applications.foldlM (fun state application => State.applyChecked application state)
          (State.ground program.numberOfQubits))
        (program.applications.foldlM (fun state application => State.apply application state)
          (State.ground program.numberOfQubits)) := by
      refine .foldlM (fun application member state => ?_) _
      obtain ⟨instruction, listed, found⟩ := List.mem_filterMap.1 member
      cases instruction with
      | reset qubits => cases found
      | apply other =>
        cases found
        exact State.applyChecked_agrees (wellFormed _ listed) state
    exact evolved.bind fun state => shots_agree (fun seed => ⟨measure draw state seed, rfl, rfl⟩) count seed

end Agreement

end Simulator

section Observables
variable {R : Type} [Scalar R]

theorem Operator.tensorPower_shape {K : Type} [Zero K] [One K] [Mul K] {operator : Operator K}
    (rows : operator.rows = 2) (columns : operator.columns = 2) (power : Nat) :
    (operator.tensorPower power).rows = Basis.size power ∧
      (operator.tensorPower power).columns = Basis.size power := by
  induction power with
  | zero => exact ⟨rfl, rfl⟩
  | succ power ih =>
    obtain ⟨powerRows, powerColumns⟩ := ih
    rw [tensorPower, kronecker, rows_tabulate, columns_tabulate, powerRows, powerColumns, rows, columns]
    exact ⟨rfl, rfl⟩

def Observable.Built (observable : Observable R) : Prop :=
  ∃ operator, ofOperator observable.numberOfQubits operator = .ok observable

theorem Observable.shape_of_ofOperator {numberOfQubits : Nat} {operator : Operator (ComplexNumber R)}
    {observable : Observable R} (made : ofOperator numberOfQubits operator = .ok observable) :
    observable.operator.rows = Basis.size numberOfQubits ∧
      observable.operator.columns = Basis.size numberOfQubits := by
  obtain ⟨square, _, _, ⟨full, rfl⟩ | ⟨_, single, rfl⟩⟩ := ofOperator_ok.1 made
  · exact ⟨full, square ▸ full⟩
  · exact Operator.tensorPower_shape single (square ▸ single) numberOfQubits

theorem Observable.Built.shape {observable : Observable R} (built : observable.Built) :
    observable.operator.rows = Basis.size observable.numberOfQubits ∧
      observable.operator.columns = Basis.size observable.numberOfQubits := by
  obtain ⟨operator, made⟩ := built
  exact shape_of_ofOperator made

end Observables

namespace Simulator
variable {R : Type} [Scalar R]

theorem runChecked_agrees {Seed : Type} (draw : Seed → R × Seed) (seed : Seed) {maxQubits : Nat} {job : Job R}
    (wellFormed : ∀ instruction ∈ job.program.instructions,
      instruction.WellFormed job.program.numberOfQubits)
    (built : ∀ observable, job.observable = some observable → observable.Built)
    (accepted : checkJob "simulator" maxQubits job = .ok ()) :
    Agree (runChecked draw seed job) (run draw seed job) := by
  have sampled : Agree
      (if job.shots = 0 then distributionChecked job.program
        else (samplesChecked draw job.program job.shots seed).map (·.1))
      (if job.shots = 0 then distribution job.program
        else (samples draw job.program job.shots seed).map (·.1)) := by
    split
    · exact distributionChecked_agrees wellFormed
    · exact (samplesChecked_agrees wellFormed draw job.shots seed).map _
  unfold runChecked run
  cases asked : job.jobType with
  | sample => exact sampled
  | obs =>
    cases given : job.observable with
    | none => exact sampled
    | some observable =>
      -- An accepted observable acts on the register of the program.
      have fits : observable.numberOfQubits = job.program.numberOfQubits := by
        simp only [checkJob, asked, given] at accepted
        split at accepted
        · cases accepted
        · by_contra other
          rw [if_pos other] at accepted
          cases accepted
      obtain ⟨rows, columns⟩ := (built observable given).shape
      rw [fits] at rows columns
      exact (expectationChecked_agrees wellFormed rows columns).map ([·])

end Simulator

/-- The program of a circuit is well formed, and the simulator answers every job for it that it
accepts without an access outside the operands, the register or a matrix. -/
theorem Lowering.program_in_range {R : Type} [Scalar R] [Literal R] (lowering : Lowering R)
    (circuit : Circuit R) (program : Program R) (lowered : lowering.program circuit = .ok program) :
    program.numberOfQubits = lowering.numberOfQubits ∧
      (∀ instruction ∈ program.instructions, instruction.WellFormed lowering.numberOfQubits) ∧
      ∀ (Seed : Type) (draw : Seed → R × Seed) (seed : Seed) (maxQubits : Nat) (job : Job R),
        job.program = program →
        (∀ observable, job.observable = some observable → observable.Built) →
        checkJob "simulator" maxQubits job = .ok () →
        ∃ samples, Simulator.runChecked draw seed job = .ok samples ∧
          (Simulator.engine draw seed maxQubits).submit job = .ok { jobId := job.id, samples } := by
  obtain ⟨size, emitted⟩ := program_ok lowered
  have wellFormed (instruction : Instruction R) (member : instruction ∈ program.instructions) :
      instruction.WellFormed lowering.numberOfQubits :=
    (emitted instruction member).wellFormed
  refine ⟨size, wellFormed, ?_⟩
  rintro Seed draw seed maxQubits job rfl built accepted
  rw [← size] at wellFormed
  obtain ⟨samples, checked, ran⟩ := Simulator.runChecked_agrees draw seed wellFormed built accepted
  refine ⟨samples, checked, ?_⟩
  simp only [Simulator.engine, accepted, ran]
  rfl

/-- Two qubits that are entangled and reset twice, padded with identities, for any number of shots. -/
theorem Lowering.program_in_range_reset :
    let lowering : Lowering Float := { numberOfQubits := 2, identityPadding := true }
    let circuit : Circuit Float := [.loop (.literal 2) [.gate .hadamard #v[0] #v[],
      .gate .variableMSXX #v[0, 1] #v[.literal 0.5], .activeReset 0]]
    ∃ program, lowering.program circuit = .ok program ∧ ∀ shots, ∃ samples,
      Simulator.runChecked RandomSource.draw 0 (.sample program shots) = .ok samples := by
  intro lowering circuit
  have lowers : (lowering.program circuit).toOption.isSome = true := by decide +kernel
  cases lowered : lowering.program circuit with
  | error error =>
    rw [lowered] at lowers
    cases lowers
  | ok program =>
    obtain ⟨size, _, answers⟩ := program_in_range lowering circuit program lowered
    refine ⟨program, rfl, fun shots => ?_⟩
    have accepted : checkJob "simulator" 20 (Job.sample program shots) = .ok () := by
      simp [checkJob, Job.sample, size, lowering]
    obtain ⟨samples, checked, _⟩ :=
      answers UInt64 RandomSource.draw 0 20 (.sample program shots) rfl (fun _ given => by cases given) accepted
    exact ⟨samples, checked⟩

end CircuitRunner
