import Mathlib
import CircuitRunner.Proofs.CheckedRun
import CircuitRunner.Proofs.UnitNorm

/-! Qubits that a reset has set to zero and that nothing mentions afterwards. No basis state with such
a qubit set keeps an amplitude, in every branch of the ensemble and in every shot. The states reported
without shots show it. A shot shows it unless its draw reaches the squared norm of the final state:
the last basis state is taken then, which has every qubit set. -/
namespace CircuitRunner

open ComplexNumber

/-- A fold brings about what one of its items does and the others keep. -/
theorem foldl_established {α β : Type} {step : β → α → β} (holds : β → Prop) {item : α} {items : List α}
    (brings : item ∈ items → ∀ state, holds (step state item))
    (keeps : ∀ other ∈ items, ∀ state, holds state → holds (step state other))
    {start : β} (either : item ∈ items ∨ holds start) : holds (items.foldl step start) := by
  induction items generalizing start with
  | nil => exact either.resolve_left List.not_mem_nil
  | cons first rest ih =>
    rw [List.foldl_cons]
    refine ih (fun member => brings (List.mem_cons_of_mem _ member))
      (fun other member => keeps other (List.mem_cons_of_mem _ member)) ?_
    rcases either with listed | already
    · rcases List.mem_cons.1 listed with rfl | later
      · exact .inr (brings listed start)
      · exact .inl later
    · exact .inr (keeps first List.mem_cons_self start already)

theorem ComplexNumber.zero_divide (divisor : ℝ) : (0 : ComplexNumber ℝ).divide divisor = 0 := by
  ext <;> simp [divide]

theorem Application.WellFormed.apply_eq {n : Nat} {application : Application ℝ}
    (wellFormed : application.WellFormed n) :
    ∃ operator, ∀ state : State (ComplexNumber ℝ) n,
      state.apply application = .ok (state.applyOperator operator application.operands) := by
  obtain ⟨gate, operands⟩ := application
  obtain ⟨arity, ⟨operator, found, rows, columns⟩, inside⟩ := wellFormed
  rw [← arity] at rows columns
  exact ⟨operator, fun state => state.apply_eq_applyOperator found arity ⟨rows.ge, columns.ge⟩ inside⟩

namespace State
variable {n : Nat} {state : State (ComplexNumber ℝ) n} {qubit : Nat}

def Cleared (qubit : Nat) (state : State (ComplexNumber ℝ) n) : Prop :=
  ∀ index < Basis.size n, index.testBit qubit = true → state.amplitude index = 0

theorem Cleared.applyOperator (cleared : state.Cleared qubit) (operator : Operator (ComplexNumber ℝ))
    {operands : List Nat} (inside : ∀ operand ∈ operands, operand < n) (unlisted : qubit ∉ operands) :
    (state.applyOperator operator operands).Cleared qubit := by
  intro index bound set
  rw [amplitude_applyOperator _ _ _ bound]
  apply Finset.sum_eq_zero
  intro column _
  have same := Basis.testBit_scatter_of_notMem unlisted column index
  rw [cleared _ (Basis.scatter_lt inside bound column) (same.trans set), mul_zero]

theorem amplitude_restrict (state : State (ComplexNumber ℝ) n) (other : Nat) (value : Bool) {index : Nat}
    (bound : index < Basis.size n) :
    (state.restrict other value).amplitude index =
      if index.testBit other = value then state.amplitude index else 0 := by
  rw [restrict, mapAmplitudes, amplitude_tabulate _ bound]

theorem Cleared.restrict (cleared : state.Cleared qubit) (other : Nat) (value : Bool) :
    (state.restrict other value).Cleared qubit := by
  intro index bound set
  rw [amplitude_restrict state other value bound, cleared index bound set, ite_self]

theorem cleared_restrict (state : State (ComplexNumber ℝ) n) (qubit : Nat) :
    (state.restrict qubit false).Cleared qubit := by
  intro index bound set
  rw [amplitude_restrict state qubit false bound, if_neg]
  rw [set]
  exact Bool.false_ne_true.symm

/-- The collapse of a qubit clears it, and keeps clear what was clear. -/
theorem cleared_of_collapse? {other : Nat} (inside : other < n) (outcome : Bool) {next : State (ComplexNumber ℝ) n}
    (collapsed : state.collapse? other outcome = some next) (either : other = qubit ∨ state.Cleared qubit) :
    next.Cleared qubit := by
  obtain ⟨_, rfl⟩ := state.eq_of_collapse? collapsed
  intro index bound set
  cases outcome with
  | false =>
    change (state.projected other false).amplitude index = 0
    rw [amplitude_projected _ _ _ bound]
    rcases either with rfl | cleared
    · rw [set, if_neg Bool.false_ne_true.symm, zero_divide]
    · rw [cleared index bound set, ite_self, zero_divide]
  | true =>
    change ((state.projected other true).pauliX other).amplitude index = 0
    have flipped := Basis.flip_lt inside bound
    rw [amplitude_pauliX _ _ bound, amplitude_projected _ _ _ flipped]
    by_cases same : other = qubit
    · subst same
      rw [if_neg, zero_divide]
      simp [Basis.testBit_flip, set]
    · have cleared := either.resolve_left same
      have stays : (Basis.flip other index).testBit qubit = true := by
        rw [Basis.testBit_flip, decide_eq_false same, Bool.xor_false, set]
      rw [cleared _ flipped stays, ite_self, zero_divide]

/-- A draw from `[0, 1)` that selects one selects an outcome of positive weight. -/
theorem cleared_reset {other : Nat} (inside : other < n) {draw : ℝ} (nonnegative : 0 ≤ draw)
    (either : other = qubit ∨ state.Cleared qubit) : (state.reset other draw).Cleared qubit := by
  unfold reset
  rw [probabilityOne_eq]
  generalize chosen : Scalar.less draw (state.weight other true) = outcome
  dsimp only
  cases collapsed : state.collapse? other outcome with
  | some next => exact cleared_of_collapse? inside outcome collapsed either
  | none =>
    cases outcome with
    | true =>
      have below : draw < state.weight other true := of_decide_eq_true chosen
      rw [collapse?_eq, if_pos (nonnegative.trans_lt below)] at collapsed
      cases collapsed
    | false =>
      rcases either with rfl | cleared
      · exact state.cleared_restrict other
      · exact cleared.restrict other false

/-- Where the scan stops, the running sum passes the bound with that entry. -/
theorem firstAbove_some {bound total : ℝ} {position found : Nat} {entries : List ℝ} (low : total ≤ bound)
    (stops : firstAbove bound total position entries = some found) :
    ∃ offset < entries.length, found = position + offset ∧
      total + (entries.take offset).sum ≤ bound ∧ bound < total + (entries.take (offset + 1)).sum := by
  induction entries generalizing total position with
  | nil => cases stops
  | cons entry rest ih =>
    rw [firstAbove] at stops
    split at stops
    · rename_i above
      cases stops
      have passes : bound < total + entry := of_decide_eq_true above
      exact ⟨0, by simp, by simp, by simpa using low, by simpa using passes⟩
    · rename_i below
      have stays : total + entry ≤ bound := not_lt.1 fun passes => below (decide_eq_true passes)
      obtain ⟨offset, inside, rfl, before, after⟩ := ih stays stops
      refine ⟨offset + 1, Nat.succ_lt_succ inside, by omega, ?_, ?_⟩
      · rwa [List.take_succ_cons, List.sum_cons, ← add_assoc]
      · rwa [List.take_succ_cons, List.sum_cons, ← add_assoc]

theorem firstAbove_none {bound total : ℝ} {position : Nat} {entries : List ℝ} (low : total ≤ bound)
    (runs : firstAbove bound total position entries = none) : total + entries.sum ≤ bound := by
  induction entries generalizing total position with
  | nil => simpa using low
  | cons entry rest ih =>
    rw [firstAbove] at runs
    split at runs
    · cases runs
    · rename_i below
      have stays : total + entry ≤ bound := not_lt.1 fun passes => below (decide_eq_true passes)
      rw [List.sum_cons, ← add_assoc]
      exact ih stays runs

theorem sum_probabilities (state : State (ComplexNumber ℝ) n) : state.probabilities.sum = state.squaredNorm := rfl

theorem sum_take_probabilities_le (state : State (ComplexNumber ℝ) n) (count : Nat) :
    (state.probabilities.take count).sum ≤ state.squaredNorm := by
  have rest : 0 ≤ (state.probabilities.drop count).sum := by
    apply List.sum_nonneg
    intro probability member
    obtain ⟨index, _, rfl⟩ := List.mem_map.1 (List.mem_of_mem_drop member)
    exact normSq_nonneg _
  rw [← sum_probabilities, ← List.sum_take_add_sum_drop state.probabilities count]
  exact le_add_of_nonneg_right rest

/-- The basis state that is sampled has an amplitude, or the draw reaches the squared norm and it is the
last one. -/
theorem sample_cases (state : State (ComplexNumber ℝ) n) {draw : ℝ} (nonnegative : 0 ≤ draw) :
    (draw < state.squaredNorm ∧ state.sample draw < Basis.size n ∧ state.amplitude (state.sample draw) ≠ 0) ∨
      (state.squaredNorm ≤ draw ∧ state.sample draw = Basis.size n - 1) := by
  unfold sample
  cases scanned : firstAbove draw 0 0 state.probabilities with
  | none =>
    have total := firstAbove_none nonnegative scanned
    rw [zero_add, sum_probabilities] at total
    exact .inr ⟨total, rfl⟩
  | some found =>
    obtain ⟨offset, inside, rfl, before, after⟩ := firstAbove_some nonnegative scanned
    have bound : offset < Basis.size n := by simpa [probabilities] using inside
    have own : state.probabilities[offset] = (state.amplitude offset).normSq := by simp [probabilities]
    have total := state.sum_take_probabilities_le (offset + 1)
    rw [zero_add] at before after
    have passes := after
    rw [List.sum_take_succ _ offset inside, own] at passes
    rw [Option.getD_some, zero_add]
    refine .inl ⟨after.trans_le total, bound, fun zero => ?_⟩
    rw [zero, normSq_zero] at passes
    linarith

theorem sample_cleared (cleared : state.Cleared qubit) (inside : qubit < n) {draw : ℝ} (nonnegative : 0 ≤ draw) :
    (state.sample draw).testBit qubit = true ↔ state.squaredNorm ≤ draw := by
  rcases state.sample_cases nonnegative with ⟨below, bound, present⟩ | ⟨reached, last⟩
  · have unset : (state.sample draw).testBit qubit ≠ true := fun set => present (cleared _ bound set)
    exact iff_of_false unset (not_le.2 below)
  · have set : (state.sample draw).testBit qubit = true := by
      rw [last]
      change (2 ^ n - 1).testBit qubit = true
      rw [Nat.testBit_two_pow_sub_one, decide_eq_true inside]
    exact iff_of_true set reached

end State

namespace Simulator
variable {n : Nat} {qubit : Nat}

theorem split_cleared {other : Nat} (inside : other < n) {branch next : Branch ℝ n}
    (member : next ∈ split other branch) (either : other = qubit ∨ branch.state.Cleared qubit) :
    next.state.Cleared qubit := by
  obtain ⟨outcome, _, collapsed⟩ := List.mem_filterMap.1 member
  obtain ⟨state, collapses, rfl⟩ := Option.map_eq_some_iff.1 collapsed
  exact State.cleared_of_collapse? inside outcome.1 collapses either

theorem resets_cleared {others : List Nat} (inside : ∀ other ∈ others, other < n) (listed : qubit ∈ others)
    (branches : List (Branch ℝ n)) :
    ∀ branch ∈ others.foldl (fun branches other => branches.flatMap (split other)) branches,
      branch.state.Cleared qubit := by
  refine foldl_established (fun branches : List (Branch ℝ n) => ∀ branch ∈ branches, branch.state.Cleared qubit)
    (fun _ branches next member => ?_) (fun other listed branches cleared next member => ?_) (.inl listed)
  · obtain ⟨branch, _, part⟩ := List.mem_flatMap.1 member
    exact split_cleared (inside qubit listed) part (.inl rfl)
  · obtain ⟨branch, before, part⟩ := List.mem_flatMap.1 member
    exact split_cleared (inside other listed) part (.inr (cleared branch before))

/-- An instruction that leaves the qubit alone keeps it clear in every branch. -/
theorem evolveBranches_cleared {instruction : Instruction ℝ} (wellFormed : instruction.WellFormed n)
    (unmentioned : qubit ∉ instruction.qubits) {branches : List (Branch ℝ n)}
    (cleared : ∀ branch ∈ branches, branch.state.Cleared qubit) :
    ∃ next, evolveBranches branches instruction = .ok next ∧ ∀ branch ∈ next, branch.state.Cleared qubit := by
  refine evolveBranches_keeps ?_ ?_ cleared
  · rintro application rfl branch cleared
    obtain ⟨operator, applies⟩ := Application.WellFormed.apply_eq wellFormed
    exact ⟨_, applies branch.state, cleared.applyOperator operator wellFormed.inside unmentioned⟩
  · rintro others rfl other listed branch cleared next part
    exact split_cleared (wellFormed other listed) part (.inr cleared)

section Sampling
variable {Seed : Type} {draw : Seed → ℝ × Seed}

theorem resetStep_cleared (drawn : ∀ seed, 0 ≤ (draw seed).1) {others : List Nat}
    (inside : ∀ other ∈ others, other < n) {current : State (ComplexNumber ℝ) n × Seed}
    (either : qubit ∈ others ∨ current.1.Cleared qubit) :
    ∃ next, step draw current (.reset others) = .ok next ∧ next.1.Cleared qubit := by
  refine ⟨_, rfl, ?_⟩
  refine foldl_established (fun current : State (ComplexNumber ℝ) n × Seed => current.1.Cleared qubit)
    (fun listed current => ?_) (fun other listed current cleared => ?_) either
  · exact State.cleared_reset (inside qubit listed) (drawn current.2) (.inl rfl)
  · exact State.cleared_reset (inside other listed) (drawn current.2) (.inr cleared)

/-- An instruction that leaves the qubit alone keeps it clear in every shot. -/
theorem step_cleared (drawn : ∀ seed, 0 ≤ (draw seed).1) {instruction : Instruction ℝ}
    (wellFormed : instruction.WellFormed n) (unmentioned : qubit ∉ instruction.qubits)
    {current : State (ComplexNumber ℝ) n × Seed} (cleared : current.1.Cleared qubit) :
    ∃ next, step draw current instruction = .ok next ∧ next.1.Cleared qubit := by
  cases instruction with
  | apply application =>
    obtain ⟨operator, applies⟩ := wellFormed.apply_eq
    refine ⟨(_, current.2), ?_, cleared.applyOperator operator wellFormed.inside unmentioned⟩
    rw [step, applies]
    rfl
  | reset others => exact resetStep_cleared drawn wellFormed (.inr cleared)

end Sampling
end Simulator

def Program.lastMention? {R : Type} (program : Program R) (qubit : Nat) : Option (Instruction R) :=
  program.instructions.reverse.find? (·.qubits.contains qubit)

theorem Program.split_of_lastMention? {R : Type} {program : Program R} {qubit : Nat} {instruction : Instruction R}
    (last : program.lastMention? qubit = some instruction) :
    qubit ∈ instruction.qubits ∧ ∃ before after, program.instructions = before ++ instruction :: after ∧
      ∀ later ∈ after, qubit ∉ later.qubits := by
  obtain ⟨mentions, after, before, arranged, others⟩ := List.find?_eq_some_iff_append.1 last
  refine ⟨List.contains_iff_mem.1 mentions, before.reverse, after.reverse, ?_, ?_⟩
  · rw [← List.reverse_reverse program.instructions, arranged]
    simp
  · intro later member
    simpa using others later (List.mem_reverse.1 member)

def Sample.bit? {R : Type} (qubit : Nat) (sample : Sample R) : Option Bool := sample.bits?.bind (·[qubit]?)

theorem Sample.bit?_state {R : Type} {n qubit : Nat} (inside : qubit < n) (index : Nat) (probability : Option R) :
    (Sample.state (Basis.bits n index) probability).bit? qubit = some (index.testBit qubit) := by
  simp [bit?, bits?, Basis.bits, inside]

namespace Simulator

/-- Shots that never fault: one sample each, and the shots before a sample leave the seed at which its own starts. -/
theorem shots_each {R : Type} {Seed : Type} {once : Seed → Except Fault (Sample R × Seed)}
    {holds : Seed → Sample R → Prop}
    (each : ∀ seed, ∃ sample next, once seed = .ok (sample, next) ∧ holds seed sample) (count : Nat)
    (seed : Seed) :
    ∃ samples next, shots once count seed = .ok (samples, next) ∧ samples.length = count ∧
      ∀ before sample after, samples = before ++ sample :: after →
        ∃ start, shots once before.length seed = .ok (before, start) ∧ holds start sample := by
  induction count generalizing seed with
  | zero => exact ⟨[], seed, rfl, rfl, by simp⟩
  | succ count ih =>
    obtain ⟨first, middle, firstDrawn, firstHolds⟩ := each seed
    obtain ⟨rest, final, restDrawn, length, restHold⟩ := ih middle
    have continued {number : Nat} {drawn : List (Sample R)} {last : Seed}
        (ran : shots once number middle = .ok (drawn, last)) :
        shots once (number + 1) seed = .ok (first :: drawn, last) := by
      simp only [shots, firstDrawn, ran, bind, Except.bind]
      rfl
    refine ⟨first :: rest, final, continued restDrawn, by rw [List.length_cons, length], ?_⟩
    intro before sample after arranged
    cases before with
    | nil =>
      cases arranged
      exact ⟨seed, rfl, firstHolds⟩
    | cons head others =>
      obtain ⟨rfl, remaining⟩ := List.cons.inj arranged
      obtain ⟨start, earlier, holding⟩ := restHold others sample after remaining
      exact ⟨start, continued earlier, holding⟩

section LastReset
variable {program : Program ℝ} {qubit : Nat} {others : List Nat}
  (wellFormed : ∀ instruction ∈ program.instructions, instruction.WellFormed program.numberOfQubits)
  (last : program.lastMention? qubit = some (.reset others))
include wellFormed last

theorem lastReset_inside : qubit < program.numberOfQubits := by
  obtain ⟨listed, before, after, arranged, _⟩ := Program.split_of_lastMention? last
  exact wellFormed (.reset others) (by simp [arranged]) qubit listed

theorem ensemble_cleared :
    ∃ branches, ensemble program = .ok branches ∧ ∀ branch ∈ branches, branch.state.Cleared qubit := by
  obtain ⟨listed, before, after, arranged, unmentioned⟩ := Program.split_of_lastMention? last
  rw [arranged, List.forall_mem_append, List.forall_mem_cons] at wellFormed
  obtain ⟨early, own, late⟩ := wellFormed
  rw [ensemble, arranged]
  refine foldlM_established (fun branches : List (Branch ℝ program.numberOfQubits) =>
    ∀ branch ∈ branches, branch.state.Cleared qubit) ?_ ?_ ?_ _
  · intro instruction member branches
    obtain ⟨next, _, evolved⟩ := evolveBranchesChecked_agrees (early instruction member) branches
    exact ⟨next, evolved⟩
  · exact fun branches => ⟨_, rfl, resets_cleared own listed branches⟩
  · exact fun instruction member branches =>
      evolveBranches_cleared (late instruction member) (unmentioned instruction member)

/-- Every state reported without shots has the qubit at zero. -/
theorem distribution_cleared :
    ∃ states, distribution program = .ok states ∧ ∀ sample ∈ states, sample.bit? qubit = some false := by
  obtain ⟨branches, evolved, cleared⟩ := ensemble_cleared wellFormed last
  refine ⟨_, distribution_eq evolved, fun sample member => ?_⟩
  obtain ⟨index, bound, reported⟩ := List.mem_filterMap.1 member
  rw [List.mem_range] at bound
  rw [Option.ite_none_right_eq_some] at reported
  obtain ⟨above, same⟩ := reported
  rw [← Option.some.inj same, Sample.bit?_state (lastReset_inside wellFormed last)]
  refine congrArg some (Bool.eq_false_iff.2 fun set => ?_)
  have nothing : probability branches index = 0 := by
    rw [probability, accumulate_eq_sum]
    apply List.sum_eq_zero
    intro term listed
    obtain ⟨branch, kept, rfl⟩ := List.mem_map.1 listed
    rw [cleared branch kept index bound set, normSq_zero, mul_zero]
  have positive : (1e-12 : ℝ) < probability branches index := of_decide_eq_true above
  rw [nothing] at positive
  norm_num at positive

variable {Seed : Type} {draw : Seed → ℝ × Seed} (drawn : ∀ seed, 0 ≤ (draw seed).1)
include drawn

theorem final_cleared (seed : Seed) :
    ∃ final, program.instructions.foldlM (step draw) (.ground program.numberOfQubits, seed) = .ok final ∧
      final.1.Cleared qubit := by
  obtain ⟨listed, before, after, arranged, unmentioned⟩ := Program.split_of_lastMention? last
  rw [arranged, List.forall_mem_append, List.forall_mem_cons] at wellFormed
  obtain ⟨early, own, late⟩ := wellFormed
  rw [arranged]
  refine foldlM_established (fun current : State (ComplexNumber ℝ) program.numberOfQubits × Seed =>
    current.1.Cleared qubit) ?_ ?_ ?_ _
  · intro instruction member current
    obtain ⟨next, _, stepped⟩ := stepChecked_agrees draw (early instruction member) current
    exact ⟨next, stepped⟩
  · exact fun current => resetStep_cleared drawn own (.inl listed)
  · exact fun instruction member current =>
      step_cleared drawn (late instruction member) (unmentioned instruction member)

/-- A shot has the qubit at one exactly where its last draw reaches the squared norm of its state. -/
theorem shot_cleared (seed : Seed) :
    ∃ sample next final, shot draw program seed = .ok (sample, next) ∧
      program.instructions.foldlM (step draw) (.ground program.numberOfQubits, seed) = .ok final ∧
      ∃ value, sample.bit? qubit = some value ∧ (value = true ↔ final.1.squaredNorm ≤ (draw final.2).1) := by
  obtain ⟨final, reached, cleared⟩ := final_cleared wellFormed last drawn seed
  have inside := lastReset_inside wellFormed last
  refine ⟨_, (draw final.2).2, final, ?_, reached, _, Sample.bit?_state inside (final.1.sample (draw final.2).1) none,
    State.sample_cleared cleared inside (drawn final.2)⟩
  rw [shot, reached]
  rfl

theorem samples_cleared (count : Nat) (seed : Seed) :
    ∃ samples next, Simulator.samples draw program count seed = .ok (samples, next) ∧ samples.length = count ∧
      ∀ before sample after, samples = before ++ sample :: after →
        ∃ start, shots (shot draw program) before.length seed = .ok (before, start) ∧
        ∃ next final, shot draw program start = .ok (sample, next) ∧
          program.instructions.foldlM (step draw) (.ground program.numberOfQubits, start) = .ok final ∧
          ∃ value, sample.bit? qubit = some value ∧
            (value = true ↔ final.1.squaredNorm ≤ (draw final.2).1) := by
  obtain ⟨_, before, after, arranged, _⟩ := Program.split_of_lastMention? last
  have resets : program.hasReset = true := by simp [Program.hasReset, arranged, Instruction.isReset]
  rw [samples, if_pos resets]
  refine shots_each (fun start => ?_) count seed
  obtain ⟨sample, next, final, drawnSample, described⟩ := shot_cleared wellFormed last drawn start
  exact ⟨sample, next, drawnSample, next, final, drawnSample, described⟩

end LastReset

theorem final_unit {program : Program ℝ}
    (keeps : ∀ instruction ∈ program.instructions, instruction.KeepsNorm program.numberOfQubits)
    {Seed : Type} {draw : Seed → ℝ × Seed} (drawn : ∀ seed, 0 ≤ (draw seed).1 ∧ (draw seed).1 < 1)
    {seed : Seed} {final : State (ComplexNumber ℝ) program.numberOfQubits × Seed}
    (reached : program.instructions.foldlM (step draw) (.ground program.numberOfQubits, seed) = .ok final) :
    final.1.squaredNorm = 1 := by
  obtain ⟨other, same, unit⟩ :
      ∃ other, program.instructions.foldlM (step draw) (.ground program.numberOfQubits, seed) = .ok other ∧
        other.1.squaredNorm = 1 :=
    foldlM_invariant _ (fun instruction member current unit => step_unit drawn (keeps instruction member) unit)
      State.squaredNorm_ground
  rw [reached] at same
  rwa [Except.ok.inj same]

end Simulator

/-- A qubit that is mentioned for the last time by a reset is zero in every state reported without
shots. A sample has it at one exactly where the draw that measures its shot reaches the squared norm of
that shot's final state, so never where all gates are normalised; the shots before it leave the seed at which
its own shot starts. -/
theorem Lowering.program_reset [Literal ℝ] (lowering : Lowering ℝ) (circuit : Circuit ℝ) (program : Program ℝ)
    (lowered : lowering.program circuit = .ok program) (qubit : Nat) (others : List Nat)
    (last : program.lastMention? qubit = some (.reset others)) (Seed : Type) (draw : Seed → ℝ × Seed)
    (drawn : ∀ seed, 0 ≤ (draw seed).1 ∧ (draw seed).1 < 1) (seed : Seed) :
    (∃ states, Simulator.run draw seed (.sample program 0) = .ok states ∧
        ∀ sample ∈ states, sample.bit? qubit = some false) ∧
      ∀ shots, 0 < shots → ∃ samples, Simulator.run draw seed (.sample program shots) = .ok samples ∧
        samples.length = shots ∧
        (∀ before sample after, samples = before ++ sample :: after →
          ∃ start, Simulator.shots (Simulator.shot draw program) before.length seed = .ok (before, start) ∧
          ∃ next final, Simulator.shot draw program start = .ok (sample, next) ∧
            program.instructions.foldlM (Simulator.step draw) (.ground program.numberOfQubits, start) = .ok final ∧
            ∃ value, sample.bit? qubit = some value ∧
              (value = true ↔ final.1.squaredNorm ≤ (draw final.2).1)) ∧
        ((∀ kind operands parameters arguments, .gate kind operands parameters ∈ circuit.inlined →
            parameters.mapM (Parameter.resolve lowering.resolver) = .ok arguments → kind.Normalised arguments) →
          ∀ sample ∈ samples, sample.bit? qubit = some false) := by
  obtain ⟨size, emitted⟩ := program_ok lowered
  have wellFormed (instruction : Instruction ℝ) (member : instruction ∈ program.instructions) :
      instruction.WellFormed program.numberOfQubits := size ▸ (emitted instruction member).wellFormed
  refine ⟨Simulator.distribution_cleared wellFormed last, fun shots positive => ?_⟩
  obtain ⟨samples, next, ran, length, each⟩ :=
    Simulator.samples_cleared wellFormed last (fun seed => (drawn seed).1) shots seed
  refine ⟨samples, ?_, length, each, fun normalised sample member => ?_⟩
  · change (if shots = 0 then _ else _) = _
    rw [if_neg positive.ne']
    change (Simulator.samples draw program shots seed).map _ = _
    rw [ran]
    rfl
  · obtain ⟨before, after, arranged⟩ := List.append_of_mem member
    obtain ⟨start, _, _, final, _, reached, value, shown, exactly⟩ := each before sample after arranged
    have unit := Simulator.final_unit
      (fun instruction member => size ▸ (emitted instruction member).keepsNorm normalised) drawn reached
    rw [unit] at exactly
    have unset : ¬value = true := fun set => absurd (exactly.1 set) (not_le.2 (drawn final.2).2)
    rw [shown, Bool.eq_false_iff.2 unset]

/-- One of two entangled qubits is reset before the other is turned again. -/
theorem Lowering.program_reset_entangled :
    letI := Backend.exactLiteral
    let lowering : Lowering ℝ := { numberOfQubits := 2 }
    let circuit : Circuit ℝ := [.gate .rotateX #v[0] (#v[1].map .literal),
      .gate .variableMSXX #v[0, 1] (#v[1].map .literal), .activeReset 0, .gate .rotateX #v[1] (#v[1].map .literal)]
    ∃ program, lowering.program circuit = .ok program ∧ program.lastMention? 0 = some (.reset [0]) ∧
      ∃ samples, Simulator.run (fun seed : Unit => (1 / 2, seed)) () (.sample program 3) = .ok samples ∧
        samples.length = 3 ∧ ∀ sample ∈ samples, sample.bit? 0 = some false := by
  let literal := Backend.exactLiteral
  intro lowering circuit
  let program : Program ℝ := ⟨2, [.apply ⟨.rx 1, [0]⟩, .apply ⟨GateKind.variableMSXX.toGate #v[1], [0, 1]⟩,
    .reset [0], .apply ⟨.rx 1, [1]⟩]⟩
  have lowered : lowering.program circuit = .ok program := by
    have first := lowering.operation_literals rfl .rotateX #v[0] #v[1] (by decide)
    have second := lowering.operation_literals rfl .variableMSXX #v[0, 1] #v[1] (by decide)
    have third := lowering.operation_literals rfl .rotateX #v[1] #v[1] (by decide)
    simp only [Lowering.program, Lowering.body, circuit, first, second, third]
    rfl
  have last : program.lastMention? 0 = some (.reset [0]) := rfl
  have drawn (seed : Unit) : 0 ≤ ((1 / 2 : ℝ), seed).1 ∧ ((1 / 2 : ℝ), seed).1 < 1 := by norm_num
  have normalised (kind : GateKind) (operands : Vector Nat kind.arity)
      (parameters : Vector (Parameter ℝ) kind.parameterCount) (arguments : Vector ℝ kind.parameterCount)
      (listed : .gate kind operands parameters ∈ circuit.inlined)
      (_ : parameters.mapM (Parameter.resolve lowering.resolver) = .ok arguments) :
      kind.Normalised arguments := by
    cases listed with
    | head => trivial
    | tail _ listed =>
      cases listed with
      | head => trivial
      | tail _ listed =>
        cases listed with
        | tail _ listed =>
          cases List.mem_singleton.1 listed
          trivial
  obtain ⟨_, sampled⟩ := program_reset lowering circuit _ lowered 0 [0] last Unit
    (fun seed => (1 / 2, seed)) drawn ()
  obtain ⟨samples, ran, length, _, cleared⟩ := sampled 3 (by decide)
  exact ⟨_, lowered, last, samples, ran, length, cleared normalised⟩

/-- A gate that is not normalised leaves the qubit at one with a quarter of the weight. The draw misses
that outcome, the other has no weight, and the sample falls through to the last basis state. -/
theorem Lowering.program_reset_damped :
    letI := Backend.exactLiteral
    let lowering : Lowering ℝ := { numberOfQubits := 1 }
    let circuit : Circuit ℝ := [.gate .singleQubitGate #v[0] (#v[0, 0, 1 / 2, 0, 0].map .literal), .activeReset 0]
    ∃ program, lowering.program circuit = .ok program ∧ program.lastMention? 0 = some (.reset [0]) ∧
      Simulator.run (fun seed : Unit => (1 / 2, seed)) () (.sample program 1) = .ok [.state [true] none] := by
  let literal := Backend.exactLiteral
  intro lowering circuit
  let draw (seed : Unit) : ℝ × Unit := (1 / 2, seed)
  let program : Program ℝ :=
    ⟨1, [.apply ⟨GateKind.singleQubitGate.toGate #v[0, 0, 1 / 2, 0, 0], [0]⟩, .reset [0]]⟩
  have lowered : lowering.program circuit = .ok program := by
    have first := lowering.operation_literals rfl .singleQubitGate #v[0] #v[0, 0, 1 / 2, 0, 0] (by decide)
    simp only [Lowering.program, Lowering.body, circuit, first]
    rfl
  obtain ⟨moved, applied, zero, one⟩ := State.apply_amplitudes 0 (1 / 2)
  have two : Basis.size 1 = 2 := rfl
  have oneWeight : moved.weight 0 true = 1 / 4 := by
    norm_num [State.weight_eq, two, Finset.sum_range_succ, one]
  have zeroWeight : moved.weight 0 false = 0 := by
    simp [State.weight_eq, two, Finset.sum_range_succ, zero]
  have missed : moved.reset 0 (1 / 2) = moved.restrict 0 false := by
    have above : Scalar.less (1 / 2) (1 / 4 : ℝ) = false := decide_eq_false (by norm_num)
    rw [State.reset, State.probabilityOne_eq, oneWeight, above, State.collapse?_eq, zeroWeight,
      if_neg (lt_irrefl 0), Option.getD_none]
  have empty : (moved.restrict 0 false).squaredNorm = 0 := by
    simp [State.squaredNorm, two, Finset.sum_range_succ, State.amplitude_restrict, zero, normSq_zero]
  have selected : (moved.restrict 0 false).sample (1 / 2) = 1 := by
    rcases (moved.restrict 0 false).sample_cases (one_half_pos.le) with ⟨below, _⟩ | ⟨_, last⟩
    · rw [empty] at below
      norm_num at below
    · exact last
  have shot : Simulator.shot draw program () = .ok (.state [true] none, ()) := by
    simp only [Simulator.shot, program, List.foldlM_cons, Simulator.step, applied]
    change Except.ok (Sample.state (Basis.bits 1 ((moved.reset 0 (1 / 2)).sample (1 / 2))) none, ()) = _
    rw [missed, selected]
    rfl
  refine ⟨program, lowered, rfl, ?_⟩
  change (Simulator.shots (Simulator.shot draw program) 1 ()).map _ = _
  simp only [Simulator.shots, shot]
  rfl

end CircuitRunner
