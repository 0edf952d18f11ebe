import CircuitRunner.Proofs.CheckedRun
import CircuitRunner.Proofs.SimulatedSamples

/-! Shots of a program without resets. Gates take no draws and a measurement leaves the state as it is, so one
run of the gates serves every shot: the samples, and the seed after them, are those of running the whole
program again for each shot. -/
namespace CircuitRunner.Simulator
variable {R : Type} [Scalar R] {Seed : Type} (draw : Seed → R × Seed)

def evolved (program : Program R) : Except Fault (State (ComplexNumber R) program.numberOfQubits) :=
  program.applications.foldlM (fun state application => state.apply application)
    (State.ground program.numberOfQubits)

theorem step_apply {n : Nat} (state : State (ComplexNumber R) n) (seed : Seed) (application : Application R) :
    step draw (state, seed) (.apply application) = (state.apply application).map (·, seed) := rfl

/-- Without a reset, the seed comes out of a run as it went in. -/
theorem foldlM_step_unitary {n : Nat} {instructions : List (Instruction R)}
    (unitary : instructions.any Instruction.isReset = false) (state : State (ComplexNumber R) n) (seed : Seed) :
    instructions.foldlM (step draw) (state, seed) =
      ((instructions.filterMap Instruction.application?).foldlM
        (fun (state : State (ComplexNumber R) n) application => state.apply application) state).map (·, seed) := by
  induction instructions generalizing state with
  | nil => rfl
  | cons instruction rest ih =>
    rw [List.any_cons, Bool.or_eq_false_iff] at unitary
    obtain ⟨first, others⟩ := unitary
    cases instruction with
    | reset qubits => cases first
    | apply application =>
      have head : (Instruction.apply application :: rest).filterMap Instruction.application? =
          application :: rest.filterMap Instruction.application? := rfl
      rw [List.foldlM_cons, head, List.foldlM_cons, step_apply]
      cases state.apply application with
      | error fault => rfl
      | ok next => exact ih others next

theorem shot_unitary {program : Program R} (unitary : program.hasReset = false) (seed : Seed) :
    shot draw program seed = (evolved program).map fun state => measure draw state seed := by
  unfold shot
  rw [foldlM_step_unitary draw unitary]
  change Except.map _ (Except.map _ (evolved program)) = _
  cases evolved program <;> rfl

theorem samples_unitary {program : Program R} (unitary : program.hasReset = false) (count : Nat) (seed : Seed) :
    samples draw program count seed =
      evolved program >>= fun state => shots (fun seed => .ok (measure draw state seed)) count seed := by
  rw [samples, unitary, if_neg Bool.false_ne_true]
  rfl

theorem samples_of_evolved {program : Program R} (unitary : program.hasReset = false)
    {state : State (ComplexNumber R) program.numberOfQubits} (reached : evolved program = .ok state) (count : Nat)
    (seed : Seed) : samples draw program count seed = shots (shot draw program) count seed := by
  have once : shot draw program = fun start => .ok (measure draw state start) := by
    funext start
    rw [shot_unitary draw unitary, reached]
    rfl
  rw [samples_unitary draw unitary, reached, once]
  rfl

theorem rerun_of_samples {program : Program R} {count : Nat} {seed next : Seed} {drawn : List (Sample R)}
    (ok : samples draw program count seed = .ok (drawn, next)) :
    shots (shot draw program) count seed = .ok (drawn, next) := by
  cases resets : program.hasReset with
  | true =>
    rw [samples, resets, if_pos rfl] at ok
    exact ok
  | false =>
    have evolves := ok
    rw [samples_unitary draw resets] at evolves
    obtain ⟨state, reached, _⟩ := ok_of_bind evolves
    rw [← samples_of_evolved draw resets reached]
    exact ok

theorem samples_of_positive (program : Program R) {count : Nat} (positive : 0 < count) (seed : Seed) :
    samples draw program count seed = shots (shot draw program) count seed := by
  cases resets : program.hasReset with
  | true => rw [samples, resets, if_pos rfl]
  | false =>
    cases reached : evolved program with
    | ok state => exact samples_of_evolved draw resets reached count seed
    | error fault =>
      -- The fault of the common run is the one that the first shot meets.
      obtain ⟨others, rfl⟩ := Nat.exists_eq_succ_of_ne_zero (Nat.ne_of_gt positive)
      rw [samples_unitary draw resets, shots, shot_unitary draw resets, reached]
      rfl

/-- Samples are those of running the program from the start for every shot, and so is the seed that they leave:
as many as shots, each with a bit for every qubit. A fault is the same on both ways as soon as there is a shot to
meet it, and on well-formed instructions there is none, whatever the number of shots. -/
theorem samples_rerun (program : Program R) (count : Nat) (seed : Seed) :
    (∀ drawn next, samples draw program count seed = .ok (drawn, next) →
      shots (shot draw program) count seed = .ok (drawn, next) ∧ drawn.length = count ∧
      ∀ sample ∈ drawn, ∃ bits, sample = .state bits none ∧ bits.length = program.numberOfQubits) ∧
    (0 < count → samples draw program count seed = shots (shot draw program) count seed) ∧
    ((∀ instruction ∈ program.instructions, instruction.WellFormed program.numberOfQubits) →
      ∃ drawn next, samples draw program count seed = .ok (drawn, next)) := by
  refine ⟨?_, fun positive => samples_of_positive draw program positive seed, fun wellFormed => ?_⟩
  · intro drawn next ok
    have rerun := rerun_of_samples draw ok
    obtain ⟨length, shaped⟩ := shots_ok (fun _ _ _ => state_of_shot) rerun
    exact ⟨rerun, length, shaped⟩
  · obtain ⟨⟨drawn, next⟩, _, ok⟩ := samplesChecked_agrees wellFormed draw count seed
    exact ⟨drawn, next, ok⟩

/-- Three shots of an entangled pair. -/
theorem samples_rerun_entangled :
    let program : Program Float := ⟨2, [.apply ⟨.h, [0]⟩, .apply ⟨.cnot, [0, 1]⟩]⟩
    program.hasReset = false ∧ ∃ drawn next, samples RandomSource.draw program 3 7 = .ok (drawn, next) ∧
      shots (shot RandomSource.draw program) 3 7 = .ok (drawn, next) ∧ drawn.length = 3 ∧
      ∀ sample ∈ drawn, ∃ bits, sample = .state bits none ∧ bits.length = 2 := by
  intro program
  have wellFormed : ∀ instruction ∈ program.instructions, instruction.WellFormed program.numberOfQubits := by
    intro instruction member
    rcases List.mem_cons.1 member with rfl | second
    · exact ⟨rfl, ⟨_, rfl, rfl, rfl⟩, by decide⟩
    · rw [List.mem_singleton.1 second]
      exact ⟨rfl, ⟨_, rfl, rfl, rfl⟩, by decide⟩
  obtain ⟨same, positive, runs⟩ := samples_rerun RandomSource.draw program 3 7
  obtain ⟨drawn, next, ok⟩ := runs wellFormed
  have rerun := positive (by decide)
  rw [ok] at rerun
  obtain ⟨_, length, shaped⟩ := same drawn next ok
  exact ⟨rfl, drawn, next, ok, rerun.symm, length, shaped⟩

/-- Without shots nothing is run again, while the common run still meets the fault of a gate that has no operand. -/
example (seed : Seed) : let program : Program R := ⟨1, [.apply ⟨.x, []⟩]⟩
    samples draw program 0 seed = .error .missingOperand ∧ shots (shot draw program) 0 seed = .ok ([], seed) :=
  ⟨rfl, rfl⟩

end CircuitRunner.Simulator
