import CircuitRunner.Double
import CircuitRunner.Proofs.CollectedRows
import CircuitRunner.Proofs.LoweredInstruction
import CircuitRunner.Proofs.SimulatedSamples
import CircuitRunner.RandomSource

/-! The jobs of a backend. Whatever settings it was built from, a backend has an observable exactly if
its jobs ask for an expectation value, and on the register that its programs run on. Engines refuse
such a job for its size only, and on the simulator the number of rows follows from the settings. -/
namespace CircuitRunner

variable {R : Type} [Scalar R]

theorem Observable.numberOfQubits_ofRows {numberOfQubits : Nat} {rows : List (List (ComplexNumber R))}
    {observable : Observable R} (made : ofRows numberOfQubits rows = .ok observable) :
    observable.numberOfQubits = numberOfQubits := by
  unfold ofRows at made
  split at made
  · cases made
  · exact numberOfQubits_ofOperator made

namespace Backend

theorem length_stateRows (readouts : List Readout) (definition : Definition) {samples : List (Sample R)}
    (states : ∀ sample ∈ samples, ∃ bits, sample = .state bits none) :
    (samples.filterMap (sampleRow? readouts · definition)).length = samples.length := by
  induction samples with
  | nil => rfl
  | cons sample rest ih =>
    obtain ⟨⟨bits, rfl⟩, others⟩ := List.forall_mem_cons.1 states
    exact congrArg (· + 1) (ih others)

theorem length_expectationRows (readouts : List Readout) (definition : Definition) (value : R) :
    ([.expectation value].filterMap (sampleRow? readouts · definition)).length =
      if definition.kind = .float then 1 else 0 := by
  by_cases float : definition.kind = .float <;> simp [sampleRow?, float]

inductive Built (configuration : Configuration R) (engine : Engine R) : Backend R → Prop
  | new {backend : Backend R} (accepted : ofConfiguration configuration engine = .ok backend) :
      Built configuration engine backend
  | withAssignment {backend : Backend R} (built : Built configuration engine backend)
      (assignment : Assignment R) : Built configuration engine (backend.withAssignment assignment)

structure Coherent (configuration : Configuration R) (engine : Engine R) (backend : Backend R) : Prop where
  configured : backend.configuration = configuration
  engine : backend.engine = engine
  jobType : JobType.ofText? configuration.jobType = some backend.jobType
  observed : backend.observable.isSome = true ↔ backend.jobType = .obs
  sized : ∀ observable, backend.observable = some observable →
    observable.numberOfQubits = configuration.numberOfQubits

theorem chooseObservable_ok {jobType : JobType} {configuration : Configuration R}
    {chosen : Option (Observable R) × List Warning} (ok : chooseObservable jobType configuration = .ok chosen) :
    (chosen.1.isSome = true ↔ jobType = .obs) ∧
      ∀ observable, chosen.1 = some observable → observable.numberOfQubits = configuration.numberOfQubits := by
  unfold chooseObservable at ok
  split at ok
  · cases ok
    exact ⟨by simp, nofun⟩
  · cases ok
    exact ⟨by simp, nofun⟩
  · obtain ⟨observable, made, rfl⟩ := ok_of_map ok
    refine ⟨by simp, fun other same => ?_⟩
    cases same
    exact Observable.numberOfQubits_ofRows made
  · obtain ⟨observable, made, rfl⟩ := ok_of_map ok
    refine ⟨by simp, fun other same => ?_⟩
    cases same
    exact Observable.numberOfQubits_ofOperator made

theorem coherent_ofConfiguration {configuration : Configuration R} {engine : Engine R} {backend : Backend R}
    (accepted : ofConfiguration configuration engine = .ok backend) : Coherent configuration engine backend := by
  obtain ⟨_, _, accepted⟩ := ok_of_bind accepted
  cases known : JobType.ofText? configuration.jobType with
  | none =>
    rw [known] at accepted
    cases accepted
  | some jobType =>
    rw [known] at accepted
    obtain ⟨chosen, fitting, accepted⟩ := ok_of_bind accepted
    obtain ⟨observed, sized⟩ := chooseObservable_ok (ok_of_mapError fitting)
    cases accepted
    exact ⟨rfl, rfl, known, observed, sized⟩

theorem Built.coherent {configuration : Configuration R} {engine : Engine R} {backend : Backend R}
    (built : Built configuration engine backend) : Coherent configuration engine backend := by
  induction built with
  | new accepted => exact coherent_ofConfiguration accepted
  | withAssignment _ _ ih => exact ⟨ih.configured, ih.engine, ih.jobType, ih.observed, ih.sized⟩

namespace Coherent
variable {configuration : Configuration R} {engine : Engine R} {backend : Backend R}

omit [Scalar R] in
/-- A backend either samples without an observable or has one for its expectation values. -/
theorem cases_job (coherent : Coherent configuration engine backend) (program : Program R) :
    (backend.jobType = .sample ∧ backend.job program = .sample program configuration.numberOfMeasurements) ∨
      ∃ observable, backend.jobType = .obs ∧ observable.numberOfQubits = configuration.numberOfQubits ∧
        backend.job program = .expectation program configuration.numberOfMeasurements observable := by
  unfold job
  cases held : backend.observable with
  | none =>
    have sampling : backend.jobType = .sample := by
      cases kind : backend.jobType with
      | sample => rfl
      | obs =>
        have some_ := coherent.observed.2 kind
        rw [held] at some_
        cases some_
    exact .inl ⟨sampling, by rw [coherent.configured]⟩
  | some observable =>
    have observing : backend.jobType = .obs := coherent.observed.1 (by rw [held]; rfl)
    exact .inr ⟨observable, observing, coherent.sized observable held, by rw [coherent.configured]⟩

omit [Scalar R] in
theorem job_parts (coherent : Coherent configuration engine backend) (program : Program R) :
    (backend.job program).program = program ∧ (backend.job program).jobType = backend.jobType ∧
      ((backend.job program).observable.isSome = true ↔ backend.jobType = .obs) ∧
      ∀ observable, (backend.job program).observable = some observable →
        observable.numberOfQubits = configuration.numberOfQubits := by
  rcases coherent.cases_job program with ⟨sampling, made⟩ | ⟨observable, observing, sized, made⟩
  · rw [made, sampling]
    exact ⟨rfl, rfl, iff_of_false nofun nofun, nofun⟩
  · rw [made, observing]
    refine ⟨rfl, rfl, iff_of_true rfl rfl, fun other same => ?_⟩
    cases same
    exact sized

omit [Scalar R] in
theorem checkJob_job (coherent : Coherent configuration engine backend) {program : Program R}
    (size : program.numberOfQubits = configuration.numberOfQubits) (name : String) (maxQubits : Nat) :
    checkJob name maxQubits (backend.job program) =
      if maxQubits < configuration.numberOfQubits then
        .error (.circuitTooLarge (.program configuration.numberOfQubits name maxQubits))
      else .ok () := by
  rcases coherent.cases_job program with ⟨_, made⟩ | ⟨observable, _, sized, made⟩
  · simp only [made, checkJob, Job.sample, size]
  · simp only [made, checkJob, Job.expectation, size, sized, ne_eq, not_true_eq_false, if_false]

variable [Literal R]

theorem size_of_program (coherent : Coherent configuration engine backend) {circuit : Circuit R}
    {program : Program R} (lowered : backend.program circuit = .ok program) :
    program.numberOfQubits = configuration.numberOfQubits := by
  rw [(Lowering.program_ok (ok_of_mapError lowered)).1, ← coherent.configured]
  rfl

theorem rows_sampled (coherent : Coherent configuration engine backend) {Seed : Type} {draw : Seed → R × Seed}
    {seed : Seed} {maxQubits : Nat} (simulated : engine = Simulator.engine draw seed maxQubits)
    {circuit : Circuit R} {registers : Registers R} (ran : backend.run circuit = .ok registers)
    (sampling : backend.jobType = .sample) (positive : 0 < configuration.numberOfMeasurements)
    (kind : RegisterKind) (name : String) :
    (registers.rows? kind name).map List.length =
      (circuit.output? kind name).map fun _ => configuration.numberOfMeasurements := by
  obtain ⟨valid, _, program, result, _, submitted, rfl⟩ := run_ok ran
  rcases coherent.cases_job program with ⟨_, made⟩ | ⟨_, observing, _⟩
  · rw [coherent.engine, simulated, made] at submitted
    obtain ⟨count, states⟩ := Simulator.states_of_sampling positive (Simulator.run_of_submit submitted)
    rw [rows?_collect_of_valid valid, Option.map_map]
    refine congrArg (Option.map · _) (funext fun definition => ?_)
    exact (length_stateRows circuit.readouts definition states).trans count
  · rw [sampling] at observing
    cases observing

theorem rows_observed (coherent : Coherent configuration engine backend) {Seed : Type} {draw : Seed → R × Seed}
    {seed : Seed} {maxQubits : Nat} (simulated : engine = Simulator.engine draw seed maxQubits)
    {circuit : Circuit R} {registers : Registers R} (ran : backend.run circuit = .ok registers)
    (observing : backend.jobType = .obs) (kind : RegisterKind) (name : String) :
    (registers.rows? kind name).map List.length =
      (circuit.output? kind name).map fun _ => if kind = .float then 1 else 0 := by
  obtain ⟨valid, _, program, result, _, submitted, rfl⟩ := run_ok ran
  rcases coherent.cases_job program with ⟨sampling, _⟩ | ⟨observable, _, _, made⟩
  · rw [observing] at sampling
    cases sampling
  · rw [coherent.engine, simulated, made] at submitted
    obtain ⟨value, valued⟩ := Simulator.value_of_expectation (Simulator.run_of_submit submitted)
    rw [rows?_collect_of_valid valid, Option.map_map, valued]
    cases found : circuit.output? kind name with
    | none => rfl
    | some definition =>
      have counted := length_expectationRows circuit.readouts definition value
      rw [Circuit.kind_of_output? found] at counted
      exact congrArg some counted

end Coherent

/-- A backend submits a job of its own type, with an observable exactly where the type asks for one and
then for the register of the program. An engine can refuse it for its size only. On the simulator every
output register gets a row per shot, or one row for an observable if it is a float register. -/
theorem job_coherent [Literal R] (configuration : Configuration R) (engine : Engine R) (backend : Backend R)
    (built : Built configuration engine backend) (circuit : Circuit R) (program : Program R)
    (lowered : backend.program circuit = .ok program) :
    let job := backend.job program
    (job.program = program ∧ job.jobType = backend.jobType ∧
        JobType.ofText? configuration.jobType = some job.jobType ∧
        (job.observable.isSome = true ↔ job.jobType = .obs) ∧
        ∀ observable, job.observable = some observable →
          observable.numberOfQubits = program.numberOfQubits) ∧
      (∀ other : Engine R, checkJob other.name other.maxQubits job =
        if other.maxQubits < configuration.numberOfQubits then
          .error (.circuitTooLarge (.program configuration.numberOfQubits other.name other.maxQubits))
        else .ok ()) ∧
      ∀ (Seed : Type) (draw : Seed → R × Seed) (seed : Seed) (maxQubits : Nat),
        engine = Simulator.engine draw seed maxQubits → ∀ registers, backend.run circuit = .ok registers →
          (job.jobType = .sample → 0 < configuration.numberOfMeasurements → ∀ kind name,
            (registers.rows? kind name).map List.length =
              (circuit.output? kind name).map fun _ => configuration.numberOfMeasurements) ∧
          (job.jobType = .obs → ∀ kind name,
            (registers.rows? kind name).map List.length =
              (circuit.output? kind name).map fun _ => if kind = .float then 1 else 0) := by
  intro job
  have coherent := built.coherent
  have size := coherent.size_of_program lowered
  obtain ⟨carried, sameType, observed, sized⟩ := coherent.job_parts program
  refine ⟨⟨carried, sameType, ?_, ?_, ?_⟩,
    fun other => coherent.checkJob_job size other.name other.maxQubits, ?_⟩
  · rw [sameType, coherent.jobType]
  · rw [sameType, observed]
  · rw [size]
    exact sized
  · intro Seed draw seed maxQubits simulated registers ran
    rw [sameType]
    exact ⟨coherent.rows_sampled simulated ran, coherent.rows_observed simulated ran⟩

/-- Three shots give three rows to the bit register and to the float register alike. -/
theorem job_coherent_sampled :
    let configuration : Configuration Float := { numberOfMeasurements := 3 }
    let engine : Engine Float := Simulator.engine RandomSource.draw 7
    let circuit : Circuit Float := [.define ⟨.bit, "ro", 1, true⟩, .define ⟨.float, "value", 2, true⟩,
      .gate .pauliX #v[0] #v[], .measure 0 "ro" 0]
    ∃ backend registers, ofConfiguration configuration engine = .ok backend ∧
      backend.run circuit = .ok registers ∧
      (registers.rows? .bit "ro").map List.length = some 3 ∧
      (registers.rows? .float "value").map List.length = some 3 := by
  intro configuration engine circuit
  have runs : ((ofConfiguration configuration engine).toOption.bind fun backend =>
      (backend.run circuit).toOption).isSome = true := by decide +kernel
  cases accepted : ofConfiguration configuration engine with
  | error error =>
    rw [accepted] at runs
    cases runs
  | ok backend =>
    rw [accepted] at runs
    change (backend.run circuit).toOption.isSome = true at runs
    cases ran : backend.run circuit with
    | error error =>
      rw [ran] at runs
      cases runs
    | ok registers =>
      obtain ⟨_, _, program, _, lowered, _⟩ := run_ok ran
      obtain ⟨⟨_, _, named, _⟩, _, simulated⟩ :=
        job_coherent configuration engine backend (.new accepted) circuit program lowered
      obtain ⟨sampled, _⟩ := simulated UInt64 RandomSource.draw 7 20 rfl registers ran
      have counted := sampled (Option.some.inj named).symm (by decide)
      exact ⟨backend, registers, rfl, ran, counted .bit "ro", counted .float "value"⟩

end Backend
end CircuitRunner
