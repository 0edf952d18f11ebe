import CircuitRunner.Proofs.SucceedsWith
import CircuitRunner.Simulator

/-! The samples that the simulator answers a job with: states with their probabilities where no shots
are asked for, one state for every shot otherwise, and one value for an observable. -/
namespace CircuitRunner.Simulator
variable {R : Type} [Scalar R] {Seed : Type} {draw : Seed → R × Seed} {seed : Seed}

theorem run_of_submit {maxQubits : Nat} {job : Job R} {result : ExecutionResult R}
    (submitted : (engine draw seed maxQubits).submit job = .ok result) :
    run draw seed job = .ok result.samples := by
  obtain ⟨_, _, answered⟩ := ok_of_bind submitted
  cases ran : run draw seed job with
  | error fault =>
    rw [ran] at answered
    cases answered
  | ok samples =>
    rw [ran] at answered
    cases answered
    rfl

theorem outcome_of_distribution {program : Program R} {samples : List (Sample R)}
    (listed : distribution program = .ok samples) {sample : Sample R} (member : sample ∈ samples) :
    ∃ bits probability, sample = .state bits (some probability) := by
  obtain ⟨branches, _, rfl⟩ := ok_of_map listed
  obtain ⟨⟨probability, index⟩, _, kept⟩ := List.mem_filterMap.1 member
  dsimp only at kept
  split at kept
  · exact ⟨_, _, (Option.some.inj kept).symm⟩
  · cases kept

omit [Scalar R] in
/-- As many samples as shots, each of them what a single shot can give. -/
theorem shots_ok {once : Seed → Except Fault (Sample R × Seed)} {holds : Sample R → Prop}
    (each : ∀ start sample next, once start = .ok (sample, next) → holds sample) {count : Nat}
    {start final : Seed} {samples : List (Sample R)} (drawn : shots once count start = .ok (samples, final)) :
    samples.length = count ∧ ∀ sample ∈ samples, holds sample := by
  induction count generalizing start samples final with
  | zero =>
    cases drawn
    exact ⟨rfl, by simp⟩
  | succ count ih =>
    rw [shots] at drawn
    obtain ⟨⟨first, middle⟩, firstDrawn, drawn⟩ := ok_of_bind drawn
    obtain ⟨⟨rest, last⟩, restDrawn, drawn⟩ := ok_of_bind drawn
    obtain ⟨length, restHold⟩ := ih restDrawn
    cases drawn
    exact ⟨congrArg (· + 1) length, List.forall_mem_cons.2 ⟨each _ _ _ firstDrawn, restHold⟩⟩

theorem state_of_shot {program : Program R} {start next : Seed} {sample : Sample R}
    (drawn : shot draw program start = .ok (sample, next)) :
    ∃ bits, sample = .state bits none ∧ bits.length = program.numberOfQubits := by
  obtain ⟨final, _, measured⟩ := ok_of_map drawn
  cases measured
  exact ⟨_, rfl, by simp [Basis.bits]⟩

theorem states_of_samples {program : Program R} {count : Nat} {next : Seed} {samples : List (Sample R)}
    (drawn : Simulator.samples draw program count seed = .ok (samples, next)) :
    samples.length = count ∧ ∀ sample ∈ samples, ∃ bits, sample = .state bits none := by
  rw [Simulator.samples] at drawn
  split at drawn
  · refine shots_ok (fun start sample final once => ?_) drawn
    obtain ⟨bits, state, _⟩ := state_of_shot once
    exact ⟨bits, state⟩
  · obtain ⟨state, _, drawn⟩ := ok_of_bind drawn
    refine shots_ok (fun start sample final once => ?_) drawn
    cases once
    exact ⟨_, rfl⟩

theorem states_of_sampling {program : Program R} {count : Nat} {samples : List (Sample R)} (positive : 0 < count)
    (ran : run draw seed (.sample program count) = .ok samples) :
    samples.length = count ∧ ∀ sample ∈ samples, ∃ bits, sample = .state bits none := by
  change (if count = 0 then _ else _) = _ at ran
  rw [if_neg (Nat.ne_of_gt positive)] at ran
  obtain ⟨⟨drawn, next⟩, sampled, rfl⟩ := ok_of_map ran
  exact states_of_samples sampled

theorem value_of_expectation {program : Program R} {count : Nat} {observable : Observable R}
    {samples : List (Sample R)} (ran : run draw seed (.expectation program count observable) = .ok samples) :
    ∃ value, samples = [.expectation value] := by
  obtain ⟨sample, valued, rfl⟩ := ok_of_map ran
  obtain ⟨branches, _, rfl⟩ := ok_of_map valued
  exact ⟨_, rfl⟩

end CircuitRunner.Simulator
