import CircuitRunner.Proofs.CheckedRun
import CircuitRunner.Proofs.FilledProgram

/-! Identities and what the simulator makes of them. In every mode a program answers as it does with
its identities struck out, and lowering with and without padding differs in identities only. -/
namespace CircuitRunner

section Effective
variable {R : Type}

def Instruction.isIdentity : Instruction R → Bool
  | .apply ⟨.i, _⟩ => true
  | _ => false

namespace Program

def effective (instructions : List (Instruction R)) : List (Instruction R) :=
  instructions.filter (!·.isIdentity)

def withoutIdentities (program : Program R) : Program R :=
  ⟨program.numberOfQubits, effective program.instructions⟩

theorem effective_append (first second : List (Instruction R)) :
    effective (first ++ second) = effective first ++ effective second :=
  List.filter_append ..

/-- A fold that leaves its state alone at identities runs over the other instructions only. -/
theorem foldlM_effective {ε α : Type} {step : α → Instruction R → Except ε α}
    (still : ∀ state instruction, instruction.isIdentity = true → step state instruction = .ok state)
    (instructions : List (Instruction R)) (start : α) :
    (effective instructions).foldlM step start = instructions.foldlM step start := by
  rw [effective, List.foldlM_filter]
  congr 1
  funext state instruction
  cases identity : instruction.isIdentity with
  | true => exact (still state instruction identity).symm
  | false => rfl

theorem hasReset_withoutIdentities (program : Program R) :
    program.withoutIdentities.hasReset = program.hasReset := by
  unfold hasReset withoutIdentities effective
  rw [List.any_filter]
  congr 1
  funext instruction
  rcases instruction with ⟨_ | _, _⟩ | _ <;> rfl

end Program
end Effective

theorem State.apply_identity {R : Type} [Scalar R] {n : Nat} {application : Application R}
    (identity : (Instruction.apply application).isIdentity = true) (state : State (ComplexNumber R) n) :
    state.apply application = .ok state := by
  obtain ⟨gate, operands⟩ := application
  cases gate with
  | i => rfl
  | _ => cases identity

namespace Simulator
variable {R : Type} [Scalar R] {n : Nat}

theorem evolveBranches_identity (branches : List (Branch R n)) (instruction : Instruction R)
    (identity : instruction.isIdentity = true) : evolveBranches branches instruction = .ok branches := by
  cases instruction with
  | reset qubits => cases identity
  | apply application =>
    have each (branch : Branch R n) (_ : branch ∈ branches) :
        (branch.state.apply application).map (fun state => { branch with state }) = .ok branch := by
      rw [State.apply_identity identity]
      rfl
    rw [evolveBranches, mapM_ok each, List.map_id']

theorem ensemble_withoutIdentities (program : Program R) :
    ensemble program.withoutIdentities = ensemble program :=
  Program.foldlM_effective evolveBranches_identity program.instructions _

theorem distribution_withoutIdentities (program : Program R) :
    distribution program.withoutIdentities = distribution program := by
  unfold distribution
  rw [ensemble_withoutIdentities]
  rfl

theorem expectation_withoutIdentities (program : Program R) (observable : Observable R) :
    expectation program.withoutIdentities observable = expectation program observable := by
  unfold expectation
  rw [ensemble_withoutIdentities]
  rfl

section Sampling
variable {Seed : Type} (draw : Seed → R × Seed)

/-- An identity takes no draw. -/
theorem step_identity (current : State (ComplexNumber R) n × Seed) (instruction : Instruction R)
    (identity : instruction.isIdentity = true) : step draw current instruction = .ok current := by
  cases instruction with
  | reset qubits => cases identity
  | apply application =>
    rw [step, State.apply_identity identity]
    rfl

theorem shot_withoutIdentities (program : Program R) :
    shot draw program.withoutIdentities = shot draw program := by
  funext seed
  unfold shot
  exact congrArg (Except.map _) (Program.foldlM_effective (step_identity draw) program.instructions _)

/-- The state that all shots of a program without resets measure. -/
theorem applications_withoutIdentities (program : Program R) (start : State (ComplexNumber R) n) :
    program.withoutIdentities.applications.foldlM (fun state application => state.apply application) start =
      program.applications.foldlM (fun state application => state.apply application) start := by
  unfold Program.applications
  rw [List.foldlM_filterMap, List.foldlM_filterMap]
  refine Program.foldlM_effective (fun state instruction identity => ?_) program.instructions start
  cases instruction with
  | reset qubits => cases identity
  | apply application => exact State.apply_identity identity state

theorem samples_withoutIdentities (program : Program R) (count : Nat) (seed : Seed) :
    samples draw program.withoutIdentities count seed = samples draw program count seed := by
  unfold samples
  rw [program.hasReset_withoutIdentities, shot_withoutIdentities]
  split
  · rfl
  · exact congrArg (· >>= _) (applications_withoutIdentities program _)

theorem submit_withoutIdentities (seed : Seed) (maxQubits : Nat) (job : Job R) :
    (engine draw seed maxQubits).submit { job with program := job.program.withoutIdentities } =
      (engine draw seed maxQubits).submit job := by
  have ran : run draw seed { job with program := job.program.withoutIdentities } = run draw seed job := by
    unfold run
    simp only [distribution_withoutIdentities, expectation_withoutIdentities, samples_withoutIdentities]
  simp only [engine, ran]
  rfl

end Sampling
end Simulator

namespace Lowering
variable {R : Type} [Scalar R] [Literal R]

def unpadded (lowering : Lowering R) : Lowering R := { lowering with identityPadding := false }

omit [Scalar R] [Literal R] in
theorem effective_idle (lowering : Lowering R) (application : Application R) :
    Program.effective (lowering.idle application) = [] := by
  unfold idle
  split
  · rw [Program.effective, List.filter_map, List.map_eq_nil_iff, List.filter_eq_nil_iff]
    intro qubit _
    exact Bool.false_ne_true
  · rfl

omit [Scalar R] [Literal R] in
theorem effective_filled (n : Nat) (instructions : List (Instruction R)) :
    Program.effective (instructions.flatMap (Instruction.filled n)) = Program.effective instructions := by
  have single (instruction : Instruction R) :
      Program.effective (instruction.filled n) = Program.effective [instruction] := by
    cases instruction with
    | reset qubits => rfl
    | apply application =>
      rw [Instruction.filled, ← List.singleton_append, Program.effective_append, effective_idle, List.append_nil]
  induction instructions with
  | nil => rfl
  | cons instruction rest ih =>
    rw [List.flatMap_cons, Program.effective_append, single, ih, ← Program.effective_append,
      List.singleton_append]

theorem body_unpadded (lowering : Lowering R) (body : List (Operation R)) :
    (lowering.body body).map Program.effective = (lowering.unpadded.body body).map Program.effective := by
  obtain ⟨n, identityPadding, resolver⟩ := lowering
  cases identityPadding with
  | false => rfl
  | true =>
    have bare : (Lowering.mk n true resolver).unpadded = Lowering.mk n false resolver := rfl
    rw [body_filled, bare]
    cases (Lowering.mk n false resolver).body body with
    | error error => rfl
    | ok instructions => exact congrArg Except.ok (effective_filled n instructions)

theorem program_unpadded (lowering : Lowering R) (circuit : Circuit R) :
    (lowering.program circuit).map Program.withoutIdentities =
      (lowering.unpadded.program circuit).map Program.withoutIdentities := by
  rcases cases_of_map_eq (body_unpadded lowering circuit) with
    ⟨error, padded, bare⟩ | ⟨full, rest, padded, bare, same⟩
  · simp only [Lowering.program, padded, bare]
    rfl
  · simp only [Lowering.program, padded, bare]
    exact congrArg (fun instructions => Except.ok (Program.mk lowering.numberOfQubits instructions)) same

/-- Padding with identities changes no answer. The circuit is refused with the same error, or it has
two programs that cannot be told apart by their exact distribution, by an expectation value, or by
samples, which leave the seed in the same place. -/
theorem program_padding (lowering : Lowering R) (circuit : Circuit R) :
    let padded := { lowering with identityPadding := true }
    let bare := { lowering with identityPadding := false }
    (∃ error, padded.program circuit = .error error ∧ bare.program circuit = .error error) ∨
      ∃ full rest, padded.program circuit = .ok full ∧ bare.program circuit = .ok rest ∧
        Agree (Simulator.distribution full) (Simulator.distribution rest) ∧
        (∀ observable, Agree (Simulator.expectation full observable) (Simulator.expectation rest observable)) ∧
        ∀ (Seed : Type) (draw : Seed → R × Seed) (seed : Seed),
          (∀ count, Agree (Simulator.samples draw full count seed) (Simulator.samples draw rest count seed)) ∧
          ∀ (maxQubits : Nat) (job : Job R),
            (Simulator.engine draw seed maxQubits).submit { job with program := full } =
              (Simulator.engine draw seed maxQubits).submit { job with program := rest } := by
  intro padded bare
  rcases cases_of_map_eq (program_unpadded padded circuit) with
    refused | ⟨full, rest, fullOk, restOk, same⟩
  · exact .inl refused
  · obtain ⟨size, emitted⟩ := program_ok restOk
    have wellFormed (instruction : Instruction R) (member : instruction ∈ rest.instructions) :
        instruction.WellFormed rest.numberOfQubits := size ▸ (emitted instruction member).wellFormed
    refine .inr ⟨full, rest, fullOk, restOk, ?_, fun observable => ?_,
      fun Seed draw seed => ⟨fun count => ?_, ?_⟩⟩
    · rw [← Simulator.distribution_withoutIdentities full, same, Simulator.distribution_withoutIdentities]
      exact (Simulator.distributionChecked_agrees wellFormed).right
    · rw [← Simulator.expectation_withoutIdentities full, same, Simulator.expectation_withoutIdentities]
      exact ((Simulator.ensembleChecked_agrees wellFormed).map _).right
    · rw [← Simulator.samples_withoutIdentities draw full, same, Simulator.samples_withoutIdentities]
      exact (Simulator.samplesChecked_agrees wellFormed draw count seed).right
    · intro maxQubits job
      rw [← Simulator.submit_withoutIdentities draw seed maxQubits { job with program := full },
        ← Simulator.submit_withoutIdentities draw seed maxQubits { job with program := rest }, same]

end Lowering
end CircuitRunner
