import Mathlib
import CircuitRunner.Proofs.DensityMatrix

/-! The ensemble of a program and the density matrix that its gates and resets lead to. The branches
together stay below that matrix, and what they lack is at most the cutoff for every dropped branch. -/
namespace CircuitRunner

open scoped ComplexOrder
open DensityMatrix

section Reference

noncomputable def Application.matrix (n : Nat) (application : Application ℝ) : DensityMatrix n :=
  match application.gate.operator with
  | .ok operator => Basis.placed n application.operands (operator.matrix application.operands.length)
  | .error _ => 0

noncomputable def Instruction.channel {n : Nat} (density : DensityMatrix n) : Instruction ℝ → DensityMatrix n
  | .apply application => application.matrix n * density * (application.matrix n).conjTranspose
  | .reset qubits => qubits.foldl (fun density qubit => resetQubit qubit density) density

noncomputable def Program.density (program : Program ℝ) : DensityMatrix program.numberOfQubits :=
  program.instructions.foldl Instruction.channel (State.ground program.numberOfQubits).density

structure Application.Unitary (n : Nat) (application : Application ℝ) : Prop where
  wellFormed : application.WellFormed n
  distinct : application.operands.Nodup
  unitary : ∀ operator, application.gate.operator = .ok operator →
    operator.matrix application.gate.arity ∈ Matrix.unitaryGroup (Fin (Basis.size application.gate.arity)) ℂ

def Instruction.Unitary (n : Nat) : Instruction ℝ → Prop
  | .apply application => application.Unitary n
  | .reset qubits => ∀ qubit ∈ qubits, qubit < n

theorem Application.Unitary.apply_ok {n : Nat} {application : Application ℝ} (unitary : application.Unitary n) :
    application.matrix n ∈ Matrix.unitaryGroup (Fin (Basis.size n)) ℂ ∧
      ∃ move : State (ComplexNumber ℝ) n → State (ComplexNumber ℝ) n, ∀ state,
        state.apply application = .ok (move state) ∧
          (move state).vector = (application.matrix n).mulVec state.vector := by
  obtain ⟨gate, operands⟩ := application
  obtain ⟨⟨arity, ⟨operator, found, rows, columns⟩, inside⟩, distinct, unitary⟩ := unitary
  have matrix : (Application.mk gate operands).matrix n =
      Basis.placed n operands (operator.matrix operands.length) := by
    rw [Application.matrix, found]
  have isUnitary := unitary operator found
  rw [← arity] at isUnitary rows columns
  rw [matrix]
  refine ⟨Basis.placed_unitary distinct inside isUnitary,
    fun state => state.applyOperator operator operands, fun state => ⟨?_, ?_⟩⟩
  · exact state.apply_eq_applyOperator found arity ⟨rows.ge, columns.ge⟩ inside
  · exact state.vector_applyOperator operator distinct inside

end Reference

/-- A positive matrix whose trace is at most so many cutoffs. -/
structure Lost {n : Nat} (gap : DensityMatrix n) (count : Nat) : Prop where
  positive : gap.PosSemidef
  small : gap.trace.re ≤ count * 1e-12

namespace Lost
variable {n : Nat} {gap other : DensityMatrix n} {count more : Nat}

theorem zero : Lost (0 : DensityMatrix n) 0 := by
  refine ⟨.zero, ?_⟩
  rw [Matrix.trace_zero, Complex.zero_re, Nat.cast_zero, zero_mul]

theorem add (lost : Lost gap count) (further : Lost other more) : Lost (gap + other) (count + more) := by
  refine ⟨lost.positive.add further.positive, ?_⟩
  rw [Matrix.trace_add, Complex.add_re, Nat.cast_add, add_mul]
  exact add_le_add lost.small further.small

theorem conjugate {matrix : DensityMatrix n}
    (unitary : matrix ∈ Matrix.unitaryGroup (Fin (Basis.size n)) ℂ) (lost : Lost gap count) :
    Lost (matrix * gap * matrix.conjTranspose) count := by
  refine ⟨lost.positive.mul_mul_conjTranspose_same matrix, ?_⟩
  rw [trace_conjugate unitary]
  exact lost.small

theorem reset {qubit : Nat} (inside : qubit < n) (lost : Lost gap count) : Lost (resetQubit qubit gap) count := by
  refine ⟨posSemidef_resetQubit lost.positive qubit, ?_⟩
  rw [trace_resetQubit inside]
  exact lost.small

end Lost

namespace Simulator

section Counted
variable {R : Type} [Scalar R] {n : Nat}

def dropped (qubit : Nat) (branch : Branch R n) : Nat :=
  let one := branch.state.probabilityOne qubit
  [1 - one, one].countP fun probability => !Scalar.less cutoff (branch.weight * probability)

def evolveCounted (current : List (Branch R n) × Nat) :
    Instruction R → Except Fault (List (Branch R n) × Nat)
  | .apply application =>
    (evolveBranches current.1 (.apply application)).map fun branches => (branches, current.2)
  | .reset qubits => .ok (qubits.foldl (fun current qubit =>
      (current.1.flatMap (split qubit), current.2 + (current.1.map (dropped qubit)).sum)) current)

def ensembleCounted (program : Program R) :
    Except Fault (List (Branch R program.numberOfQubits) × Nat) :=
  program.instructions.foldlM evolveCounted ([⟨1, .ground program.numberOfQubits⟩], 0)

theorem evolveCounted_branches (current : List (Branch R n) × Nat) (instruction : Instruction R) :
    (evolveCounted current instruction).map Prod.fst = evolveBranches current.1 instruction := by
  cases instruction with
  | apply application =>
    rw [evolveCounted]
    cases evolveBranches current.1 (.apply application) <;> rfl
  | reset qubits =>
    rw [evolveCounted, evolveBranches]
    induction qubits generalizing current with
    | nil => rfl
    | cons qubit rest ih => exact ih _

theorem ensembleCounted_branches (program : Program R) :
    (ensembleCounted program).map Prod.fst = ensemble program :=
  foldlM_map evolveCounted_branches program.instructions _

def kept (qubit : Nat) (branch : Branch R n) (outcome : Bool) (probability : R) : Option (Branch R n) :=
  if Scalar.less cutoff (branch.weight * probability) then
    (branch.state.collapse? qubit outcome).map (Branch.mk (branch.weight * probability))
  else none

def missed (branch : Branch R n) (probability : R) : Nat :=
  if Scalar.less cutoff (branch.weight * probability) then 0 else 1

theorem split_eq (qubit : Nat) (branch : Branch R n) :
    split qubit branch = (kept qubit branch false (1 - branch.state.probabilityOne qubit)).toList ++
      (kept qubit branch true (branch.state.probabilityOne qubit)).toList := by
  cases zero : Scalar.less cutoff (branch.weight * (1 - branch.state.probabilityOne qubit)) <;>
    cases one : Scalar.less cutoff (branch.weight * branch.state.probabilityOne qubit) <;>
    cases first : branch.state.collapse? qubit false <;>
    cases second : branch.state.collapse? qubit true <;>
    simp [split, kept, zero, one, first, second]

theorem dropped_eq (qubit : Nat) (branch : Branch R n) :
    dropped qubit branch = missed branch (1 - branch.state.probabilityOne qubit) +
      missed branch (branch.state.probabilityOne qubit) := by
  cases zero : Scalar.less cutoff (branch.weight * (1 - branch.state.probabilityOne qubit)) <;>
    cases one : Scalar.less cutoff (branch.weight * branch.state.probabilityOne qubit) <;>
    simp [dropped, missed, zero, one]

end Counted

variable {n : Nat}

noncomputable def mixed (branches : List (Branch ℝ n)) : DensityMatrix n :=
  (branches.map fun branch => ((branch.weight : ℝ) : ℂ) • branch.state.density).sum

theorem mixed_nil : mixed ([] : List (Branch ℝ n)) = 0 := rfl

theorem mixed_cons (branch : Branch ℝ n) (rest : List (Branch ℝ n)) :
    mixed (branch :: rest) = ((branch.weight : ℝ) : ℂ) • branch.state.density + mixed rest := by
  rw [mixed, List.map_cons, List.sum_cons, mixed]

theorem mixed_append (first second : List (Branch ℝ n)) :
    mixed (first ++ second) = mixed first + mixed second := by
  rw [mixed, List.map_append, List.sum_append, mixed, mixed]

theorem trace_mixed {branches : List (Branch ℝ n)} (unit : ∀ branch ∈ branches, branch.state.squaredNorm = 1) :
    (mixed branches).trace = ((branches.map Branch.weight).sum : ℝ) := by
  induction branches with
  | nil => simp [mixed]
  | cons branch rest ih =>
    obtain ⟨first, others⟩ := List.forall_mem_cons.1 unit
    rw [mixed_cons, Matrix.trace_add, Matrix.trace_smul, State.trace_density, first, ih others, List.map_cons,
      List.sum_cons]
    simp

theorem mixed_diagonal (branches : List (Branch ℝ n)) (index : Fin (Basis.size n)) :
    mixed branches index index =
      ((accumulate (branches.map fun branch =>
        branch.weight * (branch.state.amplitude index).normSq) : ℝ) : ℂ) := by
  rw [accumulate_eq_sum]
  induction branches with
  | nil => simp [mixed]
  | cons branch rest ih =>
    rw [mixed_cons, Matrix.add_apply, Matrix.smul_apply, ih, State.density_diagonal, List.map_cons,
      List.sum_cons]
    simp

theorem mixed_moved {matrix : DensityMatrix n} {move : State (ComplexNumber ℝ) n → State (ComplexNumber ℝ) n}
    (moved : ∀ state, (move state).vector = matrix.mulVec state.vector) (branches : List (Branch ℝ n)) :
    mixed (branches.map fun branch => { branch with state := move branch.state }) =
      matrix * mixed branches * matrix.conjTranspose := by
  induction branches with
  | nil => simp [mixed]
  | cons branch rest ih =>
    rw [List.map_cons, mixed_cons, mixed_cons, ih, State.density_of_mulVec (moved branch.state), Matrix.mul_add,
      Matrix.add_mul, Matrix.mul_smul, Matrix.smul_mul]

/-- What one outcome of a reset loses. A kept branch is the whole part of its outcome. -/
theorem kept_lost {qubit : Nat} (inside : qubit < n) {branch : Branch ℝ n} (nonnegative : 0 ≤ branch.weight)
    (outcome : Bool) :
    Lost (((branch.weight : ℝ) : ℂ) • resetPart qubit outcome branch.state.density -
        mixed (kept qubit branch outcome (branch.state.weight qubit outcome)).toList)
      (missed branch (branch.state.weight qubit outcome)) := by
  have possible := branch.state.weight_nonneg qubit outcome
  by_cases large : (1e-12 : ℝ) < branch.weight * branch.state.weight qubit outcome
  · have passes : Scalar.less cutoff (branch.weight * branch.state.weight qubit outcome) = true :=
      decide_eq_true large
    have positive : 0 < branch.state.weight qubit outcome := by
      by_contra zero
      rw [le_antisymm (not_lt.1 zero) possible, mul_zero] at large
      norm_num at large
    have collapses := branch.state.collapse?_eq qubit outcome
    rw [if_pos positive] at collapses
    rw [kept, if_pos passes, missed, if_pos passes, collapses, Option.map_some, Option.toList_some,
      mixed_cons, mixed_nil, ← branch.state.density_of_collapse? inside collapses, smul_smul,
      Complex.ofReal_mul, add_zero, sub_self]
    exact .zero
  · have rejects : ¬Scalar.less cutoff (branch.weight * branch.state.weight qubit outcome) = true :=
      fun passes => large (of_decide_eq_true passes)
    rw [kept, if_neg rejects, missed, if_neg rejects, Option.toList_none, mixed_nil, sub_zero]
    constructor
    · exact (posSemidef_resetPart branch.state.posSemidef_density qubit outcome).smul
        (Complex.zero_le_real.2 nonnegative)
    · rw [Matrix.trace_smul, branch.state.trace_resetPart_density inside, smul_eq_mul, ← Complex.ofReal_mul,
        Complex.ofReal_re, Nat.cast_one, one_mul]
      exact not_lt.1 large

theorem split_lost {qubit : Nat} (inside : qubit < n) {branch : Branch ℝ n} (nonnegative : 0 ≤ branch.weight)
    (unit : branch.state.squaredNorm = 1) :
    Lost (resetQubit qubit (((branch.weight : ℝ) : ℂ) • branch.state.density) - mixed (split qubit branch))
      (dropped qubit branch) := by
  have one := branch.state.probabilityOne_eq qubit
  have zero : 1 - branch.state.probabilityOne qubit = branch.state.weight qubit false := by
    rw [one, ← unit, ← branch.state.weight_add_weight qubit, add_sub_cancel_right]
  rw [split_eq, dropped_eq, zero, one, mixed_append, resetQubit_eq, resetPart_smul, resetPart_smul,
    add_sub_add_comm]
  exact (kept_lost inside nonnegative false).add (kept_lost inside nonnegative true)

theorem branches_lost {qubit : Nat} (inside : qubit < n) {branches : List (Branch ℝ n)}
    (nonnegative : ∀ branch ∈ branches, 0 ≤ branch.weight)
    (unit : ∀ branch ∈ branches, branch.state.squaredNorm = 1) :
    Lost (resetQubit qubit (mixed branches) - mixed (branches.flatMap (split qubit)))
      (branches.map (dropped qubit)).sum := by
  induction branches with
  | nil =>
    have nothing : resetQubit qubit (mixed ([] : List (Branch ℝ n))) - mixed [] = 0 := by
      simp [mixed_nil, resetQubit]
    rw [List.flatMap_nil, nothing]
    exact .zero
  | cons branch rest ih =>
    obtain ⟨firstNonnegative, nonnegative⟩ := List.forall_mem_cons.1 nonnegative
    obtain ⟨firstUnit, unit⟩ := List.forall_mem_cons.1 unit
    rw [mixed_cons, resetQubit_add, List.flatMap_cons, mixed_append, add_sub_add_comm, List.map_cons,
      List.sum_cons]
    exact (split_lost inside firstNonnegative firstUnit).add (ih nonnegative unit)

theorem split_nonnegative {qubit : Nat} {branch next : Branch ℝ n} (member : next ∈ split qubit branch) :
    0 ≤ next.weight := by
  obtain ⟨outcome, listed, collapsed⟩ := List.mem_filterMap.1 member
  obtain ⟨state, _, rfl⟩ := Option.map_eq_some_iff.1 collapsed
  have large : (1e-12 : ℝ) < branch.weight * outcome.2 := of_decide_eq_true (List.mem_filter.1 listed).2
  exact le_trans (by norm_num) large.le

/-- Weighted states of norm one that stay below a density matrix of trace one, and lack at most the
cutoff for every branch that was dropped. -/
structure Approximates (density : DensityMatrix n) (current : List (Branch ℝ n) × Nat) : Prop where
  unit : ∀ branch ∈ current.1, branch.state.squaredNorm = 1
  nonnegative : ∀ branch ∈ current.1, 0 ≤ branch.weight
  trace : density.trace = 1
  lost : Lost (density - mixed current.1) current.2

theorem approximates_ground :
    Approximates (State.ground n : State (ComplexNumber ℝ) n).density ([⟨1, .ground n⟩], 0) := by
  refine ⟨?_, ?_, ?_, ?_⟩
  · intro branch member
    rw [List.mem_singleton.1 member]
    exact State.squaredNorm_ground
  · intro branch member
    rw [List.mem_singleton.1 member]
    exact zero_le_one
  · rw [State.trace_density, State.squaredNorm_ground, Complex.ofReal_one]
  · have nothing : (State.ground n : State (ComplexNumber ℝ) n).density - mixed [⟨1, .ground n⟩] = 0 := by
      simp [mixed]
    rw [nothing]
    exact .zero

namespace Approximates
variable {density : DensityMatrix n} {current : List (Branch ℝ n) × Nat}

theorem reset {qubit : Nat} (inside : qubit < n) (approximates : Approximates density current) :
    Approximates (resetQubit qubit density)
      (current.1.flatMap (split qubit), current.2 + (current.1.map (dropped qubit)).sum) := by
  refine ⟨?_, ?_, ?_, ?_⟩
  · intro next member
    obtain ⟨branch, _, part⟩ := List.mem_flatMap.1 member
    exact split_unit inside part
  · intro next member
    obtain ⟨branch, _, part⟩ := List.mem_flatMap.1 member
    exact split_nonnegative part
  · rw [trace_resetQubit inside, approximates.trace]
  · have parts : resetQubit qubit density - mixed (current.1.flatMap (split qubit)) =
        resetQubit qubit (density - mixed current.1) +
          (resetQubit qubit (mixed current.1) - mixed (current.1.flatMap (split qubit))) := by
      rw [resetQubit_sub, sub_add_sub_cancel]
    rw [parts]
    exact (approximates.lost.reset inside).add (branches_lost inside approximates.nonnegative approximates.unit)

theorem move {matrix : DensityMatrix n} (unitary : matrix ∈ Matrix.unitaryGroup (Fin (Basis.size n)) ℂ)
    {move : State (ComplexNumber ℝ) n → State (ComplexNumber ℝ) n}
    (moved : ∀ state, (move state).vector = matrix.mulVec state.vector)
    (approximates : Approximates density current) :
    Approximates (matrix * density * matrix.conjTranspose)
      (current.1.map fun branch => { branch with state := move branch.state }, current.2) := by
  refine ⟨?_, ?_, ?_, ?_⟩
  · intro next member
    obtain ⟨branch, listed, rfl⟩ := List.mem_map.1 member
    exact (State.squaredNorm_of_unitary unitary (moved branch.state)).trans (approximates.unit branch listed)
  · intro next member
    obtain ⟨branch, listed, rfl⟩ := List.mem_map.1 member
    exact approximates.nonnegative branch listed
  · rw [trace_conjugate unitary, approximates.trace]
  · have parts : matrix * density * matrix.conjTranspose -
        mixed (current.1.map fun branch => { branch with state := move branch.state }) =
          matrix * (density - mixed current.1) * matrix.conjTranspose := by
      rw [mixed_moved moved, Matrix.mul_sub, Matrix.sub_mul]
    rw [parts]
    exact approximates.lost.conjugate unitary

theorem evolve {instruction : Instruction ℝ} (unitary : instruction.Unitary n)
    (approximates : Approximates density current) :
    ∃ next, evolveCounted current instruction = .ok next ∧ Approximates (instruction.channel density) next := by
  cases instruction with
  | apply application =>
    obtain ⟨isUnitary, move, moves⟩ := Application.Unitary.apply_ok unitary
    have applied : evolveBranches current.1 (.apply application) =
        .ok (current.1.map fun branch => { branch with state := move branch.state }) := by
      apply mapM_ok
      intro branch _
      rw [(moves branch.state).1]
      rfl
    refine ⟨_, ?_, approximates.move isUnitary fun state => (moves state).2⟩
    rw [evolveCounted, applied]
    rfl
  | reset qubits =>
    refine ⟨_, rfl, ?_⟩
    rw [Instruction.channel]
    induction qubits generalizing density current with
    | nil => exact approximates
    | cons qubit rest ih =>
      obtain ⟨inside, others⟩ := List.forall_mem_cons.1 unitary
      exact ih (approximates.reset inside) others

theorem weights (approximates : Approximates density current) :
    (current.1.map Branch.weight).sum ≤ 1 ∧ 1 - current.2 * 1e-12 ≤ (current.1.map Branch.weight).sum := by
  have whole : (density - mixed current.1).trace.re = 1 - (current.1.map Branch.weight).sum := by
    rw [Matrix.trace_sub, approximates.trace, trace_mixed approximates.unit, Complex.sub_re, Complex.one_re,
      Complex.ofReal_re]
  have small := approximates.lost.small
  have positive := (Complex.nonneg_iff.1 approximates.lost.positive.trace_nonneg).1
  rw [whole] at small positive
  constructor <;> linarith

theorem diagonal (approximates : Approximates density current) (index : Fin (Basis.size n)) :
    ‖mixed current.1 index index - density index index‖ ≤ current.2 * 1e-12 := by
  have entry (other : Fin (Basis.size n)) := Complex.nonneg_iff.1 (approximates.lost.positive.diag_nonneg (i := other))
  have real : (density - mixed current.1) index index = (((density - mixed current.1) index index).re : ℝ) :=
    Complex.ext rfl (entry index).2.symm
  have bound : ((density - mixed current.1) index index).re ≤ (density - mixed current.1).trace.re := by
    rw [Matrix.trace, Complex.re_sum]
    exact Finset.single_le_sum (f := fun other => ((density - mixed current.1) other other).re)
      (fun other _ => (entry other).1) (Finset.mem_univ index)
  rw [norm_sub_rev, ← Matrix.sub_apply, real, Complex.norm_real, Real.norm_of_nonneg (entry index).1]
  exact bound.trans approximates.lost.small

end Approximates

/-- The ensemble of a program of unitary gates and resets stays below the density matrix that they lead
to. Total weight and the probability of each basis state miss theirs by at most the cutoff for every
branch that was dropped. -/
theorem ensemble_reset_channel (program : Program ℝ)
    (unitary : ∀ instruction ∈ program.instructions, instruction.Unitary program.numberOfQubits) :
    ∃ branches dropped, ensembleCounted program = .ok (branches, dropped) ∧
      ensemble program = .ok branches ∧
      (program.density - mixed branches).PosSemidef ∧
      (branches.map Branch.weight).sum ≤ 1 ∧
      1 - (dropped : ℝ) * 1e-12 ≤ (branches.map Branch.weight).sum ∧
      ∃ samples, distribution program = .ok samples ∧
        ∀ index : Fin (Basis.size program.numberOfQubits), ∃ probability,
          (mixture branches)[(index : Nat)]? = some probability ∧
          ‖(probability : ℂ) - program.density index index‖ ≤ dropped * 1e-12 ∧
          (1e-12 < probability →
            .state (Basis.bits program.numberOfQubits index) (some probability) ∈ samples) := by
  obtain ⟨⟨branches, dropped⟩, counted, approximates⟩ :=
    foldlM_simulates Approximates Instruction.channel
      (fun instruction member density current related => related.evolve (unitary instruction member))
      (State.ground program.numberOfQubits).density approximates_ground
  have found : ensembleCounted program = .ok (branches, dropped) := counted
  have listed : ensemble program = .ok branches := by
    rw [← ensembleCounted_branches, found]
    rfl
  obtain ⟨below, above⟩ := approximates.weights
  refine ⟨branches, dropped, found, listed, approximates.lost.positive, below, above, _,
    by rw [distribution, listed]; rfl, fun index => ?_⟩
  have entry : (mixture branches)[(index : Nat)]? =
      some (accumulate (branches.map fun branch => branch.weight * (branch.state.amplitude index).normSq)) := by
    rw [mixture, List.getElem?_map, List.getElem?_range index.isLt, Option.map_some]
  refine ⟨_, entry, ?_, fun large => ?_⟩
  · rw [← mixed_diagonal]
    exact approximates.diagonal index
  · refine List.mem_filterMap.2 ⟨(_, (index : Nat)), List.mem_zipIdx_iff_getElem?.2 entry, ?_⟩
    exact if_pos (decide_eq_true large)

/-- Two entangled qubits that are both reset. -/
theorem ensemble_reset_channel_entangled :
    let program : Program ℝ := ⟨2, [.apply ⟨.h, [0]⟩, .apply ⟨.cnot, [0, 1]⟩, .reset [0, 1]]⟩
    (∀ instruction ∈ program.instructions, instruction.Unitary program.numberOfQubits) ∧
      ∃ branches dropped, ensembleCounted program = .ok (branches, dropped) ∧
        (program.density - mixed branches).PosSemidef ∧
        1 - (dropped : ℝ) * 1e-12 ≤ (branches.map Branch.weight).sum := by
  intro program
  have unitary : ∀ instruction ∈ program.instructions, instruction.Unitary program.numberOfQubits := by
    intro instruction member
    simp only [program, List.mem_cons, List.not_mem_nil, or_false] at member
    rcases member with rfl | rfl | rfl
    · refine ⟨⟨rfl, ⟨_, rfl, rfl, rfl⟩, by decide⟩, by decide, ?_⟩
      intro operator found
      cases found
      exact Operator.unitary_single .hadamard
    · refine ⟨⟨rfl, ⟨_, rfl, rfl, rfl⟩, by decide⟩, by decide, ?_⟩
      intro operator found
      cases found
      exact Operator.unitary_controlled (.antidiagonal ComplexNumber.normSq_one ComplexNumber.normSq_one)
    · exact fun qubit member => (by decide : ∀ qubit ∈ [0, 1], qubit < 2) qubit member
  obtain ⟨branches, dropped, counted, _, below, _, weights, _⟩ := ensemble_reset_channel program unitary
  exact ⟨unitary, branches, dropped, counted, below, weights⟩

end Simulator
end CircuitRunner
