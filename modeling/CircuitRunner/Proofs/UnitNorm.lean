import Mathlib
import CircuitRunner.Proofs.ExactDistribution
import CircuitRunner.Proofs.GateIsometry

/-! States of a simulation have norm one. Gates keep the norm, and a reset renormalises the part of
the state that it keeps, which is never zero for an outcome that is drawn or kept. -/
namespace CircuitRunner

theorem ComplexNumber.normSq_divide (z : ComplexNumber ℝ) (divisor : ℝ) :
    (z.divide divisor).normSq = z.normSq / (divisor * divisor) := by
  simp only [normSq, divide]
  ring

open ComplexNumber

namespace State
variable {n : Nat} (state : State (ComplexNumber ℝ) n)

theorem weight_eq (qubit : Nat) (value : Bool) :
    state.weight qubit value = ∑ index ∈ Finset.range (Basis.size n),
      if index.testBit qubit = value then (state.amplitude index).normSq else 0 := by
  rw [weight, accumulate_filter_range]
  simp only [beq_iff_eq]

theorem probabilityOne_eq (qubit : Nat) : state.probabilityOne qubit = state.weight qubit true := by
  rw [probabilityOne, accumulate_filter_range, weight_eq]

theorem weight_nonneg (qubit : Nat) (value : Bool) : 0 ≤ state.weight qubit value := by
  rw [weight_eq]
  apply Finset.sum_nonneg
  intro index _
  split
  · exact normSq_nonneg _
  · exact le_rfl

theorem weight_add_weight (qubit : Nat) :
    state.weight qubit false + state.weight qubit true = state.squaredNorm := by
  rw [weight_eq, weight_eq, squaredNorm, ← Finset.sum_add_distrib]
  apply Finset.sum_congr rfl
  intro index _
  cases index.testBit qubit <;> simp

theorem squaredNorm_ground : (ground n : State (ComplexNumber ℝ) n).squaredNorm = 1 := by
  have positive : 0 < Basis.size n := Nat.two_pow_pos n
  rw [squaredNorm, Finset.sum_eq_single_of_mem 0 (Finset.mem_range.2 positive)]
  · rw [ground, amplitude_tabulate _ positive, if_pos rfl, normSq_one]
  · intro index member other
    rw [ground, amplitude_tabulate _ (Finset.mem_range.1 member), if_neg other, normSq_zero]

noncomputable def projected (qubit : Nat) (outcome : Bool) : State (ComplexNumber ℝ) n :=
  (state.restrict qubit outcome).mapAmplitudes fun _ amplitude =>
    amplitude.divide (Real.sqrt (state.weight qubit outcome))

theorem collapse?_eq (qubit : Nat) (outcome : Bool) :
    state.collapse? qubit outcome =
      if 0 < state.weight qubit outcome then
        some (if outcome then (state.projected qubit outcome).pauliX qubit else state.projected qubit outcome)
      else none := by
  by_cases positive : 0 < state.weight qubit outcome
  · rw [if_pos positive, collapse?, if_neg]
    · rfl
    · simpa [Scalar.atMost] using positive
  · rw [if_neg positive, collapse?, if_pos]
    simpa [Scalar.atMost] using positive

theorem eq_of_collapse? {qubit : Nat} {outcome : Bool} {next : State (ComplexNumber ℝ) n}
    (collapsed : state.collapse? qubit outcome = some next) :
    0 < state.weight qubit outcome ∧
      next = if outcome then (state.projected qubit outcome).pauliX qubit else state.projected qubit outcome := by
  rw [collapse?_eq, Option.ite_none_right_eq_some] at collapsed
  exact ⟨collapsed.1, (Option.some.inj collapsed.2).symm⟩

theorem amplitude_projected (qubit : Nat) (outcome : Bool) {index : Nat} (inside : index < Basis.size n) :
    (state.projected qubit outcome).amplitude index =
      (if index.testBit qubit = outcome then state.amplitude index else 0).divide
        (Real.sqrt (state.weight qubit outcome)) := by
  rw [projected, mapAmplitudes, amplitude_tabulate _ inside, restrict, mapAmplitudes,
    amplitude_tabulate _ inside]

theorem squaredNorm_projected {qubit : Nat} {outcome : Bool} (positive : 0 < state.weight qubit outcome) :
    (state.projected qubit outcome).squaredNorm = 1 := by
  have each (index : Nat) (member : index ∈ Finset.range (Basis.size n)) :
      ((state.projected qubit outcome).amplitude index).normSq =
        (if index.testBit qubit = outcome then (state.amplitude index).normSq else 0) /
          state.weight qubit outcome := by
    rw [amplitude_projected _ _ _ (Finset.mem_range.1 member), normSq_divide,
      Real.mul_self_sqrt positive.le]
    split
    · rfl
    · rw [normSq_zero]
  rw [squaredNorm, Finset.sum_congr rfl each, ← Finset.sum_div, ← weight_eq, div_self positive.ne']

theorem squaredNorm_of_collapse? {qubit : Nat} (inside : qubit < n) {outcome : Bool}
    {next : State (ComplexNumber ℝ) n} (collapsed : state.collapse? qubit outcome = some next) :
    next.squaredNorm = 1 := by
  obtain ⟨positive, rfl⟩ := state.eq_of_collapse? collapsed
  split
  · rw [pauliX_eq_controlledX, squaredNorm_controlledX _ [] inside, squaredNorm_projected _ positive]
  · exact state.squaredNorm_projected positive

/-- A draw never selects an outcome of weight zero, so a reset leaves a state of norm one. -/
theorem squaredNorm_reset {qubit : Nat} (inside : qubit < n) {draw : ℝ} (nonnegative : 0 ≤ draw)
    (small : draw < 1) (unit : state.squaredNorm = 1) : (state.reset qubit draw).squaredNorm = 1 := by
  have total := state.weight_add_weight qubit
  rw [unit] at total
  have positive : 0 < state.weight qubit (Scalar.less draw (state.probabilityOne qubit)) := by
    rw [probabilityOne_eq]
    by_cases below : draw < state.weight qubit true
    · have drawn : Scalar.less draw (state.weight qubit true) = true := by simpa [Scalar.less] using below
      rw [drawn]
      linarith
    · have missed : Scalar.less draw (state.weight qubit true) = false := by
        simpa [Scalar.less] using below
      rw [missed]
      linarith
  have collapses := state.collapse?_eq qubit (Scalar.less draw (state.probabilityOne qubit))
  rw [if_pos positive] at collapses
  rw [reset, collapses, Option.getD_some]
  exact state.squaredNorm_of_collapse? inside collapses

end State

def Instruction.KeepsNorm (n : Nat) : Instruction ℝ → Prop
  | .apply application => ∀ state : State (ComplexNumber ℝ) n,
      ∃ next, state.apply application = .ok next ∧ next.squaredNorm = state.squaredNorm
  | .reset qubits => ∀ qubit ∈ qubits, qubit < n

theorem Lowering.Emits.keepsNorm {lowering : Lowering ℝ} {operations : List (Operation ℝ)}
    {instruction : Instruction ℝ} (emits : Emits lowering operations instruction)
    (normalised : ∀ kind operands parameters arguments, .gate kind operands parameters ∈ operations →
      parameters.mapM (Parameter.resolve lowering.resolver) = .ok arguments → kind.Normalised arguments) :
    instruction.KeepsNorm lowering.numberOfQubits := by
  cases emits with
  | reset qubit inside => exact fun other member => List.mem_singleton.1 member ▸ inside
  | gate kind operands parameters arguments listed resolved inside =>
    intro state
    have keeps := kind.keepsNorm_toGate arguments (normalised kind operands parameters arguments listed resolved)
    refine keeps _ state operands.toList ?_ inside
    rw [GateKind.arity_toGate, Vector.length_toList]
  | idle qubit inside => exact fun state => ⟨state, rfl, rfl⟩

namespace Simulator
variable {n : Nat}

/-- A property of single branches that gates and the parts of a reset keep is kept by an instruction. -/
theorem evolveBranches_keeps {holds : Branch ℝ n → Prop} {instruction : Instruction ℝ}
    (gates : ∀ application, instruction = .apply application → ∀ branch, holds branch →
      ∃ next, branch.state.apply application = .ok next ∧ holds { branch with state := next })
    (resets : ∀ qubits, instruction = .reset qubits → ∀ qubit ∈ qubits, ∀ branch, holds branch →
      ∀ next ∈ split qubit branch, holds next)
    {branches : List (Branch ℝ n)} (each : ∀ branch ∈ branches, holds branch) :
    ∃ next, evolveBranches branches instruction = .ok next ∧ ∀ branch ∈ next, holds branch := by
  cases instruction with
  | apply application =>
    apply mapM_invariant
    intro branch member
    obtain ⟨next, applied, kept⟩ := gates application rfl branch (each branch member)
    refine ⟨{ branch with state := next }, ?_, kept⟩
    rw [applied]
    rfl
  | reset qubits =>
    refine ⟨_, rfl, ?_⟩
    apply List.foldlRecOn (motive := fun branches : List (Branch ℝ n) => ∀ branch ∈ branches, holds branch)
      qubits _ each
    intro branches before qubit listed next member
    obtain ⟨branch, inside, part⟩ := List.mem_flatMap.1 member
    exact resets qubits rfl qubit listed branch (before branch inside) next part

theorem split_unit {qubit : Nat} (inside : qubit < n) {branch next : Branch ℝ n}
    (member : next ∈ split qubit branch) : next.state.squaredNorm = 1 := by
  obtain ⟨outcome, _, collapsed⟩ := List.mem_filterMap.1 member
  obtain ⟨state, collapses, rfl⟩ := Option.map_eq_some_iff.1 collapsed
  exact branch.state.squaredNorm_of_collapse? inside collapses

theorem evolveBranches_unit {instruction : Instruction ℝ} (keeps : instruction.KeepsNorm n)
    {branches : List (Branch ℝ n)} (unit : ∀ branch ∈ branches, branch.state.squaredNorm = 1) :
    ∃ next, evolveBranches branches instruction = .ok next ∧
      ∀ branch ∈ next, branch.state.squaredNorm = 1 := by
  refine evolveBranches_keeps ?_ ?_ unit
  · rintro application rfl branch unit
    obtain ⟨next, applied, kept⟩ := keeps branch.state
    exact ⟨next, applied, kept.trans unit⟩
  · rintro qubits rfl qubit listed branch _ next part
    exact split_unit (keeps qubit listed) part

theorem step_unit {Seed : Type} {draw : Seed → ℝ × Seed}
    (drawn : ∀ seed, 0 ≤ (draw seed).1 ∧ (draw seed).1 < 1) {instruction : Instruction ℝ}
    (keeps : instruction.KeepsNorm n) {current : State (ComplexNumber ℝ) n × Seed}
    (unit : current.1.squaredNorm = 1) :
    ∃ next, step draw current instruction = .ok next ∧ next.1.squaredNorm = 1 := by
  cases instruction with
  | apply application =>
    obtain ⟨next, applied, kept⟩ := keeps current.1
    refine ⟨(next, current.2), ?_, kept.trans unit⟩
    rw [step, applied]
    rfl
  | reset qubits =>
    refine ⟨_, rfl, ?_⟩
    apply List.foldlRecOn (motive := fun current : State (ComplexNumber ℝ) n × Seed =>
      current.1.squaredNorm = 1) qubits _ unit
    intro current unit qubit listed
    obtain ⟨nonnegative, small⟩ := drawn current.2
    exact current.1.squaredNorm_reset (keeps qubit listed) nonnegative small unit

end Simulator

/-- After every part of the program of a circuit, the branches that the simulator keeps and the state
of every shot have norm one. -/
theorem Lowering.program_unit_norm [Literal ℝ] (lowering : Lowering ℝ) (circuit : Circuit ℝ)
    (program : Program ℝ) (lowered : lowering.program circuit = .ok program)
    (normalised : ∀ kind operands parameters arguments, .gate kind operands parameters ∈ circuit.inlined →
      parameters.mapM (Parameter.resolve lowering.resolver) = .ok arguments → kind.Normalised arguments)
    (instructions : List (Instruction ℝ)) (part : instructions <+: program.instructions) :
    (∃ branches, instructions.foldlM Simulator.evolveBranches [⟨1, .ground program.numberOfQubits⟩] =
        .ok branches ∧ ∀ branch ∈ branches, branch.state.squaredNorm = 1) ∧
      ∀ (Seed : Type) (draw : Seed → ℝ × Seed), (∀ seed, 0 ≤ (draw seed).1 ∧ (draw seed).1 < 1) →
        ∀ seed, ∃ final, instructions.foldlM (Simulator.step draw) (.ground program.numberOfQubits, seed) =
          .ok final ∧ final.1.squaredNorm = 1 := by
  obtain ⟨size, emitted⟩ := program_ok lowered
  have keeps (instruction : Instruction ℝ) (member : instruction ∈ instructions) :
      instruction.KeepsNorm program.numberOfQubits := by
    rw [size]
    exact (emitted instruction (part.subset member)).keepsNorm normalised
  constructor
  · apply foldlM_invariant fun branches : List (Branch ℝ program.numberOfQubits) =>
      ∀ branch ∈ branches, branch.state.squaredNorm = 1
    · intro instruction member branches unit
      exact Simulator.evolveBranches_unit (keeps instruction member) unit
    · intro branch member
      rw [List.mem_singleton.1 member]
      exact State.squaredNorm_ground
  · intro Seed draw drawn seed
    apply foldlM_invariant fun current : State (ComplexNumber ℝ) program.numberOfQubits × Seed =>
      current.1.squaredNorm = 1
    · intro instruction member current unit
      exact Simulator.step_unit drawn (keeps instruction member) unit
    · exact State.squaredNorm_ground

/-- A matrix given by amplitudes, an interaction of a qubit with itself, and a reset. -/
theorem Lowering.program_unit_norm_coinciding :
    letI := Backend.exactLiteral
    let lowering : Lowering ℝ := { numberOfQubits := 1 }
    let circuit : Circuit ℝ := [.gate .singleQubitGate #v[0] (#v[3 / 5, 0, 4 / 5, 0, 0].map .literal),
      .gate .variableMSXX #v[0, 0] (#v[1].map .literal), .activeReset 0]
    ∃ program, lowering.program circuit = .ok program ∧ program.instructions.length = 3 ∧
      ∃ branches, Simulator.ensemble program = .ok branches ∧
        ∀ branch ∈ branches, branch.state.squaredNorm = 1 := by
  let literal := Backend.exactLiteral
  intro lowering circuit
  have lowered : lowering.program circuit = .ok ⟨1, [
      .apply ⟨GateKind.singleQubitGate.toGate #v[3 / 5, 0, 4 / 5, 0, 0], [0]⟩,
      .apply ⟨GateKind.variableMSXX.toGate #v[1], [0, 0]⟩, .reset [0]]⟩ := by
    have first := lowering.operation_literals rfl .singleQubitGate #v[0] #v[3 / 5, 0, 4 / 5, 0, 0] (by decide)
    have second := lowering.operation_literals rfl .variableMSXX #v[0, 0] #v[1] (by decide)
    simp only [Lowering.program, Lowering.body, circuit, first, second]
    rfl
  have normalised (kind : GateKind) (operands : Vector Nat kind.arity)
      (parameters : Vector (Parameter ℝ) kind.parameterCount) (arguments : Vector ℝ kind.parameterCount)
      (listed : .gate kind operands parameters ∈ circuit.inlined)
      (resolved : parameters.mapM (Parameter.resolve lowering.resolver) = .ok arguments) :
      kind.Normalised arguments := by
    cases listed with
    | head =>
      cases (resolve_literals lowering.resolver _).symm.trans resolved
      change ((3 : ℝ) / 5) ^ 2 + 0 ^ 2 + (4 / 5) ^ 2 + 0 ^ 2 = 1
      norm_num
    | tail _ listed =>
      cases listed with
      | head => trivial
      | tail _ listed => cases List.mem_singleton.1 listed
  refine ⟨_, lowered, rfl, ?_⟩
  exact (program_unit_norm lowering circuit _ lowered normalised _ (List.prefix_refl _)).1

end CircuitRunner
