import Mathlib
import CircuitRunner.Proofs.ClearedQubit
import CircuitRunner.Proofs.RepeatedShots

/-! Sampling inverts the cumulative distribution. The scan stops at the basis state whose share of the unit
interval holds the draw, so every state is drawn as often as its probability says, a state without amplitude
never, and a state of norm one leaves no draw over. -/
namespace CircuitRunner

open ComplexNumber

namespace State
variable {n : Nat} (state : State (ComplexNumber ℝ) n)

noncomputable def cumulative (count : Nat) : ℝ := ∑ index ∈ Finset.range count, (state.amplitude index).normSq

theorem cumulative_succ (count : Nat) :
    state.cumulative (count + 1) = state.cumulative count + (state.amplitude count).normSq :=
  Finset.sum_range_succ _ _

theorem cumulative_mono {first second : Nat} (before : first ≤ second) :
    state.cumulative first ≤ state.cumulative second :=
  Finset.sum_le_sum_of_subset_of_nonneg (Finset.range_mono before) fun _ _ _ => normSq_nonneg _

theorem sum_take_probabilities {count : Nat} (inside : count ≤ Basis.size n) :
    (state.probabilities.take count).sum = state.cumulative count := by
  rw [probabilities, ← List.map_take, List.take_range, Nat.min_eq_left inside]
  rfl

def Selects (draw : ℝ) (index : Nat) : Prop := state.cumulative index ≤ draw ∧ draw < state.cumulative (index + 1)

variable {state}

theorem Selects.unique {draw : ℝ} {first second : Nat} (one : state.Selects draw first)
    (two : state.Selects draw second) : first = second := by
  have ordered {first second : Nat} (one : state.Selects draw first) (two : state.Selects draw second) :
      first ≤ second := by
    by_contra beyond
    have before : state.cumulative (second + 1) ≤ state.cumulative first := state.cumulative_mono (by omega)
    exact absurd (two.2.trans_le before) (not_lt.2 one.1)
  exact le_antisymm (ordered one two) (ordered two one)

theorem Selects.amplitude_ne_zero {draw : ℝ} {index : Nat} (selects : state.Selects draw index) :
    state.amplitude index ≠ 0 := by
  intro absent
  have passed := selects.2
  rw [cumulative_succ, absent, normSq_zero, add_zero] at passed
  exact absurd passed (not_lt.2 selects.1)

/-- A draw below the squared norm ends the scan at the basis state in whose share it lies. -/
theorem firstAbove_selects {draw : ℝ} (nonnegative : 0 ≤ draw) (below : draw < state.squaredNorm) :
    firstAbove draw 0 0 state.probabilities = some (state.sample draw) ∧ state.sample draw < Basis.size n ∧
      state.Selects draw (state.sample draw) := by
  cases scanned : firstAbove draw 0 0 state.probabilities with
  | none =>
    -- A scan that runs through has not passed the draw with the sum of all probabilities.
    have reached := firstAbove_none nonnegative scanned
    rw [zero_add, sum_probabilities] at reached
    exact absurd below (not_lt.2 reached)
  | some found =>
    have sampled : state.sample draw = found := by rw [sample, scanned, Option.getD_some]
    obtain ⟨offset, inside, rfl, before, after⟩ := firstAbove_some nonnegative scanned
    have bound : offset < Basis.size n := by simpa [probabilities] using inside
    rw [zero_add, state.sum_take_probabilities bound.le] at before
    rw [zero_add, state.sum_take_probabilities bound] at after
    rw [sampled, zero_add]
    exact ⟨rfl, bound, before, after⟩

theorem sample_eq_iff (unit : state.squaredNorm = 1) {draw : ℝ} (nonnegative : 0 ≤ draw) (small : draw < 1)
    (index : Nat) : state.sample draw = index ↔ state.Selects draw index := by
  obtain ⟨_, _, selected⟩ := firstAbove_selects nonnegative (unit ▸ small)
  exact ⟨fun same => same ▸ selected, selected.unique⟩

theorem Selects.unit_interval (unit : state.squaredNorm = 1) {draw : ℝ} {index : Nat} (inside : index < Basis.size n)
    (selects : state.Selects draw index) : 0 ≤ draw ∧ draw < 1 := by
  have start : 0 ≤ state.cumulative index := state.cumulative_mono (Nat.zero_le index)
  have stop : state.cumulative (index + 1) ≤ state.squaredNorm := state.cumulative_mono inside
  exact ⟨start.trans selects.1, selects.2.trans_le (stop.trans_eq unit)⟩

theorem draws_eq_share (unit : state.squaredNorm = 1) {index : Nat} (inside : index < Basis.size n) :
    {draw | 0 ≤ draw ∧ draw < 1 ∧ state.sample draw = index} =
      Set.Ico (state.cumulative index) (state.cumulative (index + 1)) := by
  ext draw
  constructor
  · rintro ⟨nonnegative, small, sampled⟩
    exact (sample_eq_iff unit nonnegative small index).1 sampled
  · intro selects
    obtain ⟨nonnegative, small⟩ := Selects.unit_interval unit inside selects
    exact ⟨nonnegative, small, (sample_eq_iff unit nonnegative small index).2 selects⟩

end State

namespace Simulator

section Sampling
variable {R : Type} [Scalar R] {Seed : Type} (draw : Seed → R × Seed)

def draws : Nat → Seed → List R
  | 0, _ => []
  | count + 1, seed => (draw seed).1 :: draws count (draw seed).2

theorem shots_measure {n : Nat} (state : State (ComplexNumber R) n) (count : Nat) (seed : Seed) :
    ∃ next, shots (fun seed => .ok (measure draw state seed)) count seed =
      .ok ((draws draw count seed).map fun value => .state (Basis.bits n (state.sample value)) none, next) := by
  induction count generalizing seed with
  | zero => exact ⟨seed, rfl⟩
  | succ count ih =>
    obtain ⟨next, rest⟩ := ih (draw seed).2
    refine ⟨next, ?_⟩
    rw [shots]
    change (shots _ count (draw seed).2 >>= _) = _
    rw [rest]
    rfl

end Sampling

/-- Without a reset the ensemble stays a single branch. -/
theorem evolve_single {R : Type} [Scalar R] {n : Nat} {instructions : List (Instruction R)}
    (unitary : instructions.any Instruction.isReset = false) (weight : R) {state final : State (ComplexNumber R) n}
    (reached : (instructions.filterMap Instruction.application?).foldlM
      (fun (state : State (ComplexNumber R) n) application => state.apply application) state = .ok final) :
    instructions.foldlM evolveBranches [⟨weight, state⟩] = .ok [⟨weight, final⟩] := by
  induction instructions generalizing state with
  | nil =>
    cases reached
    rfl
  | cons instruction rest ih =>
    rw [List.any_cons, Bool.or_eq_false_iff] at unitary
    obtain ⟨first, others⟩ := unitary
    cases instruction with
    | reset qubits => cases first
    | apply application =>
      obtain ⟨next, applied, continued⟩ := ok_of_bind reached
      have step : state.apply application = .ok next := applied
      have moved : evolveBranches [⟨weight, state⟩] (.apply application) = .ok [⟨weight, next⟩] := by
        rw [evolveBranches, List.mapM_cons, step]
        rfl
      rw [List.foldlM_cons, moved]
      exact ih others continued

theorem probability_single {n : Nat} (state : State (ComplexNumber ℝ) n) (index : Nat) :
    probability [⟨1, state⟩] index = (state.amplitude index).normSq := by
  simp [probability, accumulate]

end Simulator

namespace State
variable {n : Nat}

section Evolved
variable {state : State (ComplexNumber ℝ) n} {instructions : List (Instruction ℝ)}
  (unitary : (⟨n, instructions⟩ : Program ℝ).hasReset = false)
  (reached : Simulator.evolved ⟨n, instructions⟩ = .ok state)
include unitary reached

theorem mem_distribution :
    ∃ states, Simulator.distribution ⟨n, instructions⟩ = .ok states ∧
      ∀ reported, reported ∈ states ↔ ∃ index < Basis.size n, 1e-12 < (state.amplitude index).normSq ∧
        reported = .state (Basis.bits n index) (some (state.amplitude index).normSq) := by
  have evolved : Simulator.ensemble ⟨n, instructions⟩ = .ok [⟨1, state⟩] :=
    Simulator.evolve_single unitary 1 reached
  refine ⟨_, Simulator.distribution_eq evolved, ?_⟩
  intro reported
  simp only [Simulator.probability_single, List.mem_filterMap, List.mem_range]
  refine exists_congr fun index => and_congr_right fun _ => ?_
  split
  · rename_i above
    have passes : 1e-12 < (state.amplitude index).normSq := of_decide_eq_true above
    simp only [Option.some_inj, passes, true_and]
    exact eq_comm
  · rename_i below
    have stays : ¬1e-12 < (state.amplitude index).normSq := fun passes => below (decide_eq_true passes)
    simp only [reduceCtorEq, stays, false_and]

theorem samples_draws {Seed : Type} (draw : Seed → ℝ × Seed) (count : Nat) (seed : Seed) :
    ∃ next, Simulator.samples draw ⟨n, instructions⟩ count seed =
      .ok ((Simulator.draws draw count seed).map fun value =>
        .state (Basis.bits n (state.sample value)) none, next) := by
  obtain ⟨next, drawn⟩ := Simulator.shots_measure draw state count seed
  refine ⟨next, ?_⟩
  rw [Simulator.samples_unitary draw unitary, reached]
  exact drawn

end Evolved

/-- Sampling a state of norm one inverts its cumulative distribution. A draw from `[0, 1)` always ends the scan,
at the one basis state whose share holds the draw, and this has an amplitude. The draws that give a basis state
are its share, as long as its probability, which is what the simulator reports for it without shots where it is
above the cutoff. With shots the outcome of each is that of its own draw. -/
theorem sample_inverse_cumulative (state : State (ComplexNumber ℝ) n) (unit : state.squaredNorm = 1) :
    (∀ draw, 0 ≤ draw → draw < 1 →
      firstAbove draw 0 0 state.probabilities = some (state.sample draw) ∧
      state.sample draw < Basis.size n ∧ state.amplitude (state.sample draw) ≠ 0 ∧
      ∀ index, state.sample draw = index ↔
        state.cumulative index ≤ draw ∧ draw < state.cumulative (index + 1)) ∧
    (∀ index < Basis.size n,
      {draw | 0 ≤ draw ∧ draw < 1 ∧ state.sample draw = index} =
        Set.Ico (state.cumulative index) (state.cumulative (index + 1)) ∧
      MeasureTheory.volume {draw : ℝ | 0 ≤ draw ∧ draw < 1 ∧ state.sample draw = index} =
        ENNReal.ofReal (state.amplitude index).normSq) ∧
    ∀ instructions, (⟨n, instructions⟩ : Program ℝ).hasReset = false →
      Simulator.evolved ⟨n, instructions⟩ = .ok state →
      (∃ states, Simulator.distribution ⟨n, instructions⟩ = .ok states ∧
        ∀ reported, reported ∈ states ↔ ∃ index < Basis.size n, 1e-12 < (state.amplitude index).normSq ∧
          reported = .state (Basis.bits n index) (some (state.amplitude index).normSq)) ∧
      ∀ {Seed : Type} (draw : Seed → ℝ × Seed) (count : Nat) (seed : Seed),
        ∃ next, Simulator.samples draw ⟨n, instructions⟩ count seed =
          .ok ((Simulator.draws draw count seed).map fun value =>
            .state (Basis.bits n (state.sample value)) none, next) := by
  refine ⟨?_, ?_, ?_⟩
  · intro draw nonnegative small
    obtain ⟨scanned, inside, selected⟩ := firstAbove_selects nonnegative (unit ▸ small)
    exact ⟨scanned, inside, selected.amplitude_ne_zero, sample_eq_iff unit nonnegative small⟩
  · intro index inside
    have length : state.cumulative (index + 1) - state.cumulative index = (state.amplitude index).normSq := by
      rw [cumulative_succ, add_sub_cancel_left]
    rw [draws_eq_share unit inside, Real.volume_Ico, length]
    exact ⟨rfl, rfl⟩
  · intro instructions unitary reached
    exact ⟨mem_distribution unitary reached, samples_draws unitary reached⟩

/-- The upper of two qubits in superposition. Half of the draws give the ground state, and a draw of one half
passes over the state after it, which has no amplitude. -/
theorem sample_inverse_cumulative_half :
    let state : State (ComplexNumber ℝ) 2 := (ground 2).hadamard 1
    let program : Program ℝ := ⟨2, [.apply ⟨.h, [1]⟩]⟩
    state.squaredNorm = 1 ∧ (state.amplitude 1).normSq = 0 ∧ state.sample (1 / 2) = 2 ∧
      MeasureTheory.volume {draw : ℝ | 0 ≤ draw ∧ draw < 1 ∧ state.sample draw = 1} = 0 ∧
      (∃ states, Simulator.distribution program = .ok states ∧ .state [false, true] (some (1 / 2)) ∈ states) ∧
      ∃ next, Simulator.samples (fun seed : ℝ => (seed, seed / 2)) program 2 (1 / 2) =
        .ok ([.state [false, true] none, .state [false, false] none], next) := by
  intro state program
  have square (index : Nat) (bound : index < 4) :
      (state.amplitude index).normSq = if index.testBit 0 then 0 else 1 / 2 := by
    have other : Basis.flip 1 index < Basis.size 2 := Basis.flip_lt (by decide) bound
    have factor := sqrtHalf_mul_self
    rw [sqrtHalf_eq] at factor
    change ((hadamard 1 (ground 2)).amplitude index).normSq = _
    rw [hadamard, amplitude_tabulate _ bound, ground, amplitude_tabulate _ bound, amplitude_tabulate _ other]
    interval_cases index
    · simpa [Basis.flip, normSq, scale] using factor
    · simp [Basis.flip, normSq, scale]
    · simpa [Basis.flip, normSq, scale] using factor
    · simp [Basis.flip, normSq, scale]
  have sums : state.cumulative 1 = 1 / 2 ∧ state.cumulative 2 = 1 / 2 ∧ state.cumulative 3 = 1 ∧
      state.cumulative 4 = 1 := by
    norm_num [cumulative, Finset.sum_range_succ, square]
  obtain ⟨one, two, three, unit⟩ := sums
  obtain ⟨inverts, shares, reports⟩ := sample_inverse_cumulative state unit
  obtain ⟨⟨states, listed, reported⟩, shots⟩ := reports program.instructions rfl rfl
  have upper : state.sample (1 / 2) = 2 := by
    obtain ⟨_, _, _, selected⟩ := inverts (1 / 2) (by norm_num) (by norm_num)
    rw [selected 2, two, three]
    norm_num
  have lower : state.sample (1 / 2 / 2) = 0 := by
    have start : state.cumulative 0 = 0 := Finset.sum_range_zero _
    obtain ⟨_, _, _, selected⟩ := inverts (1 / 2 / 2) (by norm_num) (by norm_num)
    rw [selected 0, start, one]
    norm_num
  refine ⟨unit, square 1 (by decide), upper, ?_, ⟨states, listed, ?_⟩, ?_⟩
  · rw [(shares 1 (by decide)).2, square 1 (by decide)]
    exact ENNReal.ofReal_zero
  · have half : (state.amplitude 2).normSq = 1 / 2 := square 2 (by decide)
    refine (reported _).2 ⟨2, by decide, ?_, ?_⟩
    · rw [half]
      norm_num
    · rw [half]
      rfl
  · obtain ⟨next, drawn⟩ := shots (fun seed : ℝ => (seed, seed / 2)) 2 (1 / 2)
    refine ⟨next, drawn.trans ?_⟩
    simp only [Simulator.draws, List.map_cons, List.map_nil, upper, lower]
    rfl

end State
end CircuitRunner
