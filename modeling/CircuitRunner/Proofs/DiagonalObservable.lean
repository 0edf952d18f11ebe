import Mathlib
import CircuitRunner.Proofs.CheckedRun
import CircuitRunner.Proofs.ResetChannel

/-! Diagonal observables. The matrix of an observable takes qubit 0 as the most significant bit, an index
of the register as the least significant one. The expectation value of a diagonal matrix is the sum of
its entries at the reversed indices, weighted with the probabilities of the basis states. -/
namespace CircuitRunner

namespace Basis

def reversed (n index : Nat) : Nat := (BitVec.ofNat n index).reverse.toNat

noncomputable def sign (bits : List Bool) : ℝ := (-1) ^ bits.count true

theorem testBit_gather_range (n index bit : Nat) :
    (gather (List.range n) index).testBit bit = (decide (bit < n) && index.testBit (n - 1 - bit)) := by
  rw [testBit_gather]
  by_cases inside : bit < n
  · have place : n - 1 - bit < n := by omega
    rw [List.getElem?_reverse (by simpa using inside), List.length_range, List.getElem?_range place,
      decide_eq_true inside]
    rfl
  · rw [List.getElem?_eq_none (by simpa using inside), decide_eq_false inside]
    rfl

theorem gather_range (n index : Nat) : gather (List.range n) index = reversed n index := by
  apply Nat.eq_of_testBit_eq
  intro bit
  rw [testBit_gather_range, reversed, BitVec.testBit_toNat, BitVec.getLsbD_reverse, BitVec.getMsbD_eq_getLsbD,
    BitVec.getLsbD_ofNat]
  by_cases inside : bit < n
  · have other : n - 1 - bit < n := by omega
    simp [inside, other]
  · simp [inside]

theorem testBit_reversed {n bit : Nat} (inside : bit < n) (index : Nat) :
    (reversed n index).testBit bit = index.testBit (n - 1 - bit) := by
  rw [← gather_range, testBit_gather_range, decide_eq_true inside, Bool.true_and]

theorem reversed_lt (n index : Nat) : reversed n index < size n := BitVec.isLt _

theorem reversed_injective {n first second : Nat} (firstInside : first < size n) (secondInside : second < size n)
    (same : reversed n first = reversed n second) : first = second := by
  apply Nat.eq_of_testBit_eq
  intro bit
  by_cases inside : bit < n
  · have mirrored : n - 1 - (n - 1 - bit) = bit := by omega
    have place : n - 1 - bit < n := by omega
    rw [← mirrored, ← testBit_reversed place, ← testBit_reversed place, same]
  · rw [testBit_of_size_le firstInside (not_lt.1 inside), testBit_of_size_le secondInside (not_lt.1 inside)]

theorem sign_bits (n index : Nat) :
    sign (bits n index) = ∏ qubit ∈ Finset.range n, if index.testBit qubit then (-1 : ℝ) else 1 := by
  induction n with
  | zero => simp [sign, bits]
  | succ n ih =>
    have last : bits (n + 1) index = bits n index ++ [index.testBit n] := by simp [bits, List.range_succ]
    rw [Finset.prod_range_succ, ← ih, last, sign, sign, List.count_append, pow_add]
    cases index.testBit n <;> simp

theorem sign_reversed (n index : Nat) : sign (bits n (reversed n index)) = sign (bits n index) := by
  rw [sign_bits, sign_bits, ← Finset.prod_range_reflect]
  apply Finset.prod_congr rfl
  intro qubit member
  have inside : qubit < n := Finset.mem_range.1 member
  have place : n - 1 - qubit < n := by omega
  have mirrored : n - 1 - (n - 1 - qubit) = qubit := by omega
  rw [testBit_reversed place, mirrored]

end Basis

theorem Operator.entry_tensorPower {K : Type} [CommRing K] {operator : Operator K} (rows : operator.rows = 2)
    (columns : operator.columns = 2) (power : Nat) {row column : Nat} (inRows : row < Basis.size power)
    (inColumns : column < Basis.size power) :
    (operator.tensorPower power).entry row column = ∏ qubit ∈ Finset.range power,
      operator.entry (row.testBit qubit).toNat (column.testBit qubit).toNat := by
  induction power generalizing row column with
  | zero =>
    rw [Finset.prod_range_zero]
    exact entry_tabulate 1 1 _ inRows inColumns
  | succ power ih =>
    obtain ⟨powerRows, powerColumns⟩ := tensorPower_shape rows columns power
    rw [Basis.size_succ] at inRows inColumns
    rw [tensorPower, kronecker, powerRows, powerColumns, rows, columns,
      entry_tabulate _ _ _ (by omega) (by omega), ih (by omega) (by omega), Finset.prod_range_succ']
    have lowest (number : Nat) : (number.testBit 0).toNat = number % 2 := by
      rw [Nat.toNat_testBit, pow_zero, Nat.div_one]
    simp only [Nat.testBit_succ, lowest]

namespace ComplexNumber

theorem re_sum (items : Finset Nat) (term : Nat → ComplexNumber ℝ) :
    (∑ index ∈ items, term index).re = ∑ index ∈ items, (term index).re :=
  map_sum (⟨⟨re, rfl⟩, fun _ _ => rfl⟩ : ComplexNumber ℝ →+ ℝ) term items

theorem eq_zero_of_normSq {z : ComplexNumber ℝ} (zero : z.normSq = 0) : z = 0 := by
  obtain ⟨re, im⟩ := mul_self_add_mul_self_eq_zero.1 zero
  exact ComplexNumber.ext re im

theorem ofReal_mul (x y : ℝ) : ofReal (x * y) = ofReal x * ofReal y := by
  ext <;> simp [ofReal]

end ComplexNumber

open ComplexNumber

def Operator.IsDiagonal (operator : Operator (ComplexNumber ℝ)) : Prop :=
  ∀ row column, row ≠ column → operator.entry row column = 0

namespace State
variable {n : Nat} (state : State (ComplexNumber ℝ) n)

/-- Skipping the basis states without amplitude leaves out nothing. -/
theorem expectation_eq (operator : Operator (ComplexNumber ℝ)) :
    state.expectation operator = ∑ row ∈ Finset.range (Basis.size n), ((state.amplitude row).conjugate *
      ∑ column ∈ Finset.range (Basis.size n),
        operator.entry (Basis.reversed n row) (Basis.reversed n column) * state.amplitude column).re := by
  unfold expectation
  dsimp only
  rw [accumulate_filter_range, re_sum]
  apply Finset.sum_congr rfl
  intro row _
  simp only [accumulate_range, Basis.gather_range]
  split
  · rfl
  · rename_i skipped
    have empty : ((state.amplitude row).normSq == 0) = true := by simpa using skipped
    have absent : state.amplitude row = 0 := eq_zero_of_normSq (of_decide_eq_true empty)
    rw [absent, conjugate_zero, zero_mul]

theorem expectation_diagonal {operator : Operator (ComplexNumber ℝ)} (diagonal : operator.IsDiagonal) :
    state.expectation operator = ∑ index ∈ Finset.range (Basis.size n), (state.amplitude index).normSq *
      (operator.entry (Basis.reversed n index) (Basis.reversed n index)).re := by
  rw [expectation_eq]
  apply Finset.sum_congr rfl
  intro row member
  rw [Finset.sum_eq_single_of_mem row member]
  · rw [mul_left_comm, conjugate_mul_self]
    simp [ofReal, mul_comm]
  · intro column listed other
    have apart : Basis.reversed n row ≠ Basis.reversed n column := fun same =>
      other (Basis.reversed_injective (Finset.mem_range.1 listed) (Finset.mem_range.1 member) same.symm)
    rw [diagonal _ _ apart, zero_mul]

end State

namespace Operator

theorem entry_of_rows_le {K : Type} [Zero K] {operator : Operator K} {row : Nat} (outside : operator.rows ≤ row)
    (column : Nat) : operator.entry row column = 0 :=
  dif_neg (not_lt.2 outside)

theorem entry_of_columns_le {K : Type} [Zero K] {operator : Operator K} {column : Nat}
    (outside : operator.columns ≤ column) (row : Nat) : operator.entry row column = 0 := by
  unfold entry
  split
  · exact dif_neg (not_lt.2 outside)
  · rfl

noncomputable def pauliZ : Operator (ComplexNumber ℝ) := .ofRows [[1, 0], [0, -1]]

theorem entry_pauliZ (row column : Bool) :
    pauliZ.entry row.toNat column.toNat = if row = column then (if row then -1 else 1) else 0 := by
  cases row <;> cases column <;> simp [pauliZ, entry_ofRows]

theorem prod_entry_pauliZ {n row column : Nat} (inRows : row < Basis.size n) (inColumns : column < Basis.size n) :
    ∏ qubit ∈ Finset.range n, pauliZ.entry (row.testBit qubit).toNat (column.testBit qubit).toNat =
      if row = column then ofReal (Basis.sign (Basis.bits n row)) else 0 := by
  simp only [entry_pauliZ]
  by_cases same : row = column
  · subst same
    have factor (value : Bool) :
        (if value then -1 else 1 : ComplexNumber ℝ) = ofReal (if value then -1 else 1) := by
      cases value
      · rfl
      · ext <;> simp [ofReal]
    simp only [if_true, factor, Basis.sign_bits]
    exact (map_prod (⟨⟨ofReal, rfl⟩, ofReal_mul⟩ : ℝ →* ComplexNumber ℝ) _ _).symm
  · -- Different indices inside the register differ in one of its qubits, whose factor is zero.
    obtain ⟨qubit, differs⟩ := Nat.exists_testBit_ne_of_ne same
    have inside : qubit < n := by
      by_contra beyond
      rw [Basis.testBit_of_size_le inRows (not_lt.1 beyond),
        Basis.testBit_of_size_le inColumns (not_lt.1 beyond)] at differs
      exact differs rfl
    rw [if_neg same]
    exact Finset.prod_eq_zero (Finset.mem_range.2 inside) (if_neg differs)

end Operator

namespace Observable

theorem isHermitian_of_conjugate {operator : Operator (ComplexNumber ℝ)}
    (same : ∀ row < operator.rows, ∀ column < operator.columns,
      operator.entry row column = (operator.entry column row).conjugate) : isHermitian operator = true := by
  unfold isHermitian
  rw [List.all_eq_true]
  intro row inRows
  rw [List.all_eq_true]
  intro column inColumns
  rw [← same row (List.mem_range.1 inRows) column (List.mem_range.1 inColumns), sub_self]
  refine decide_eq_true ?_
  change Real.sqrt (0 * 0 + 0 * 0) < 1e-10
  norm_num

theorem isHermitian_pauliZ : isHermitian Operator.pauliZ = true := by
  apply isHermitian_of_conjugate
  intro row inRows column inColumns
  change row < 2 at inRows
  change column < 2 at inColumns
  interval_cases row <;> interval_cases column <;>
    simp [Operator.pauliZ, Operator.entry_ofRows, ComplexNumber.ext_iff, conjugate]

/-- On a single qubit the matrix is the whole observable, and it is repeated otherwise. -/
theorem pauliZ_eq (n : Nat) : (pauliZ n : Except EngineError (Observable ℝ)) =
    if 64 ≤ n then .error (.circuitTooLarge (.observable n))
    else .ok ⟨n, if n = 1 then Operator.pauliZ else Operator.pauliZ.tensorPower n⟩ := by
  have rows : Operator.pauliZ.rows = 2 := rfl
  have columns : Operator.pauliZ.columns = 2 := rfl
  have single : 2 = Nat.pow 2 n ↔ n = 1 := by
    refine ⟨fun full => ?_, fun one => by rw [one]⟩
    exact Nat.pow_right_injective le_rfl (full.symm.trans (pow_one 2).symm)
  change ofOperator n Operator.pauliZ = _
  simp only [ofOperator, isHermitian_pauliZ, rows, columns, single]
  by_cases one : n = 1
  · simp [one]
  · simp [one]

/-- On a single qubit the bit of an index is the index, so the matrix itself and its first power have the
same entries. -/
theorem entry_of_single {n : Nat} {operator : Operator (ComplexNumber ℝ)} (single : operator.rows = 2)
    {observable : Observable ℝ} (made : ofOperator n operator = .ok observable) {row column : Nat}
    (inRows : row < Basis.size n) (inColumns : column < Basis.size n) :
    observable.operator.entry row column = ∏ qubit ∈ Finset.range n,
      operator.entry (row.testBit qubit).toNat (column.testBit qubit).toNat := by
  obtain ⟨square, _, _, ⟨full, rfl⟩ | ⟨_, _, rfl⟩⟩ := ofOperator_ok.1 made
  · obtain rfl : n = 1 := Nat.pow_right_injective le_rfl (full.symm.trans single)
    have own {number : Nat} (inside : number < Basis.size 1) : (number.testBit 0).toNat = number := by
      rw [Nat.toNat_testBit, pow_zero, Nat.div_one]
      exact Nat.mod_eq_of_lt inside
    rw [Finset.prod_range_one, own inRows, own inColumns]
  · exact Operator.entry_tensorPower single (square ▸ single) n inRows inColumns

theorem entry_of_pauliZ {n : Nat} {observable : Observable ℝ} (made : pauliZ n = .ok observable) {row column : Nat}
    (inRows : row < Basis.size n) (inColumns : column < Basis.size n) :
    observable.operator.entry row column = if row = column then ofReal (Basis.sign (Basis.bits n row)) else 0 := by
  have ofMatrix : ofOperator n Operator.pauliZ = .ok observable := made
  rw [entry_of_single rfl ofMatrix inRows inColumns, Operator.prod_entry_pauliZ inRows inColumns]

theorem isDiagonal_of_pauliZ {n : Nat} {observable : Observable ℝ} (made : pauliZ n = .ok observable) :
    observable.operator.IsDiagonal := by
  obtain ⟨rows, columns⟩ := shape_of_ofOperator made
  intro row column apart
  by_cases inRows : row < Basis.size n
  · by_cases inColumns : column < Basis.size n
    · rw [entry_of_pauliZ made inRows inColumns, if_neg apart]
    · exact Operator.entry_of_columns_le (columns.trans_le (not_lt.1 inColumns)) row
  · exact Operator.entry_of_rows_le (rows.trans_le (not_lt.1 inRows)) column

end Observable

namespace Simulator
variable {n : Nat}

/-- Weighted over all branches, the sum of one term for each basis state. -/
theorem sum_branches (branches : List (Branch ℝ n)) (factor : Nat → ℝ) :
    accumulate (branches.map fun branch => branch.weight * ∑ index ∈ Finset.range (Basis.size n),
        (branch.state.amplitude index).normSq * factor index) =
      ∑ index ∈ Finset.range (Basis.size n), probability branches index * factor index := by
  simp only [probability, accumulate_eq_sum]
  induction branches with
  | nil => simp
  | cons branch rest ih =>
    rw [List.map_cons, List.sum_cons, ih, Finset.mul_sum, ← Finset.sum_add_distrib]
    apply Finset.sum_congr rfl
    intro index _
    rw [List.map_cons, List.sum_cons]
    ring

theorem evolveBranches_nonnegative {instruction : Instruction ℝ} (wellFormed : instruction.WellFormed n)
    {branches : List (Branch ℝ n)} (nonnegative : ∀ branch ∈ branches, 0 ≤ branch.weight) :
    ∃ next, evolveBranches branches instruction = .ok next ∧ ∀ branch ∈ next, 0 ≤ branch.weight := by
  refine evolveBranches_keeps ?_ ?_ nonnegative
  · rintro application rfl branch nonnegative
    obtain ⟨next, _, applied⟩ := State.applyChecked_agrees wellFormed branch.state
    exact ⟨next, applied, nonnegative⟩
  · rintro qubits rfl qubit _ branch _ next part
    exact split_nonnegative part

theorem ensemble_nonnegative {program : Program ℝ}
    (wellFormed : ∀ instruction ∈ program.instructions, instruction.WellFormed program.numberOfQubits) :
    ∃ branches, ensemble program = .ok branches ∧ ∀ branch ∈ branches, 0 ≤ branch.weight := by
  refine foldlM_invariant (fun branches : List (Branch ℝ program.numberOfQubits) =>
    ∀ branch ∈ branches, 0 ≤ branch.weight) ?_ ?_
  · exact fun instruction member branches => evolveBranches_nonnegative (wellFormed instruction member)
  · intro branch member
    rw [List.mem_singleton.1 member]
    exact zero_le_one

theorem probability_nonneg {branches : List (Branch ℝ n)} (nonnegative : ∀ branch ∈ branches, 0 ≤ branch.weight)
    (index : Nat) : 0 ≤ probability branches index := by
  rw [probability, accumulate_eq_sum]
  apply List.sum_nonneg
  intro term member
  obtain ⟨branch, listed, rfl⟩ := List.mem_map.1 member
  exact mul_nonneg (nonnegative branch listed) (normSq_nonneg _)

theorem expectation_of_ensemble {program : Program ℝ} {branches : List (Branch ℝ program.numberOfQubits)}
    (evolved : ensemble program = .ok branches) {observable : Observable ℝ}
    (diagonal : observable.operator.IsDiagonal) :
    expectation program observable = .ok (.expectation
      (∑ index ∈ Finset.range (Basis.size program.numberOfQubits), probability branches index *
        (observable.operator.entry (Basis.reversed program.numberOfQubits index)
          (Basis.reversed program.numberOfQubits index)).re)) := by
  rw [expectation, evolved]
  simp only [State.expectation_diagonal _ diagonal]
  exact congrArg (fun value => Except.ok (Sample.expectation value)) (sum_branches branches _)

theorem sum_filterMap_range {α : Type} (count : Nat) (pick : Nat → Option α) (value : α → ℝ) :
    (((List.range count).filterMap pick).map value).sum =
      ∑ index ∈ Finset.range count, ((pick index).map value).getD 0 := by
  induction count with
  | zero => rfl
  | succ count ih =>
    rw [List.range_succ, List.filterMap_append, List.map_append, List.sum_append, ih, Finset.sum_range_succ]
    cases picked : pick count <;> simp [picked]

/-- A sum over the reported states is a sum over the basis states of a probability above the cutoff. -/
theorem sum_reported {program : Program ℝ} {branches : List (Branch ℝ program.numberOfQubits)}
    (evolved : ensemble program = .ok branches) (value : List Bool × ℝ → ℝ) :
    ∃ states, distribution program = .ok states ∧
      ((states.filterMap Sample.outcome?).map value).sum =
        ∑ index ∈ Finset.range (Basis.size program.numberOfQubits),
          if 1e-12 < probability branches index then
            value (Basis.bits program.numberOfQubits index, probability branches index)
          else 0 := by
  refine ⟨_, distribution_eq evolved, ?_⟩
  rw [List.filterMap_filterMap, sum_filterMap_range]
  apply Finset.sum_congr rfl
  intro index _
  by_cases above : (1e-12 : ℝ) < probability branches index
  · have kept : Scalar.less cutoff (probability branches index) = true := decide_eq_true above
    rw [if_pos above, if_pos kept]
    rfl
  · have dropped : ¬Scalar.less cutoff (probability branches index) = true :=
      fun kept => above (of_decide_eq_true kept)
    rw [if_neg above, if_neg dropped]
    rfl

/-- What the cutoff leaves out of a sum of signed probabilities. -/
theorem sum_dropped_le {branches : List (Branch ℝ n)} (nonnegative : ∀ branch ∈ branches, 0 ≤ branch.weight) :
    |∑ index ∈ Finset.range (Basis.size n), probability branches index * Basis.sign (Basis.bits n index) -
      ∑ index ∈ Finset.range (Basis.size n), if 1e-12 < probability branches index then
        probability branches index * Basis.sign (Basis.bits n index) else 0| ≤ 2 ^ n * 1e-12 := by
  rw [← Finset.sum_sub_distrib]
  calc |∑ index ∈ Finset.range (Basis.size n), _|
      ≤ ∑ index ∈ Finset.range (Basis.size n), |probability branches index * Basis.sign (Basis.bits n index) -
          if 1e-12 < probability branches index then
            probability branches index * Basis.sign (Basis.bits n index) else 0| :=
        Finset.abs_sum_le_sum_abs _ _
    _ ≤ ∑ index ∈ Finset.range (Basis.size n), (1e-12 : ℝ) := by
        apply Finset.sum_le_sum
        intro index _
        have unit : |Basis.sign (Basis.bits n index)| = 1 := by rw [Basis.sign, abs_neg_one_pow]
        have positive := probability_nonneg nonnegative index
        split
        · rw [sub_self, abs_zero]
          norm_num
        · rename_i small
          rw [sub_zero, abs_mul, unit, mul_one, abs_of_nonneg positive]
          exact not_lt.1 small
    _ = 2 ^ n * 1e-12 := by
        rw [Finset.sum_const, Finset.card_range, nsmul_eq_mul]
        norm_num [Basis.size]

/-- The expectation value of a diagonal observable is the sum of its entries, each at the reversed index
of a basis state and weighted with the probability of that state. For Pauli Z on every qubit these are
the signs of the basis states, and the sum over the reported states is as close as the cutoff allows. -/
theorem diagonal_expectation (program : Program ℝ)
    (wellFormed : ∀ instruction ∈ program.instructions, instruction.WellFormed program.numberOfQubits) :
    ∃ branches, ensemble program = .ok branches ∧
      (∀ observable, observable.operator.IsDiagonal → expectation program observable =
        .ok (.expectation (∑ index ∈ Finset.range (Basis.size program.numberOfQubits),
          probability branches index * (observable.operator.entry (Basis.reversed program.numberOfQubits index)
            (Basis.reversed program.numberOfQubits index)).re))) ∧
      (program.numberOfQubits < 64 → ∃ observable : Observable ℝ,
        Observable.pauliZ program.numberOfQubits = .ok observable) ∧
      ∀ observable, Observable.pauliZ program.numberOfQubits = .ok observable →
        ∃ value states, expectation program observable = .ok (.expectation value) ∧
          value = ∑ index ∈ Finset.range (Basis.size program.numberOfQubits),
            probability branches index * Basis.sign (Basis.bits program.numberOfQubits index) ∧
          distribution program = .ok states ∧
          |value - ((states.filterMap Sample.outcome?).map fun (bits, probability) =>
            probability * Basis.sign bits).sum| ≤ 2 ^ program.numberOfQubits * 1e-12 := by
  obtain ⟨branches, evolved, nonnegative⟩ := ensemble_nonnegative wellFormed
  refine ⟨branches, evolved, fun observable diagonal => expectation_of_ensemble evolved diagonal, ?_, ?_⟩
  · intro small
    exact ⟨_, (Observable.pauliZ_eq _).trans (if_neg (not_le.2 small))⟩
  · intro observable made
    obtain ⟨states, reported, total⟩ :=
      sum_reported evolved fun (bits, probability) => probability * Basis.sign bits
    have value := expectation_of_ensemble evolved (Observable.isDiagonal_of_pauliZ made)
    have signs (index : Nat) :
        (observable.operator.entry (Basis.reversed program.numberOfQubits index)
          (Basis.reversed program.numberOfQubits index)).re =
        Basis.sign (Basis.bits program.numberOfQubits index) := by
      rw [Observable.entry_of_pauliZ made (Basis.reversed_lt _ _) (Basis.reversed_lt _ _), if_pos rfl]
      exact Basis.sign_reversed _ index
    simp only [signs] at value
    refine ⟨_, states, value, rfl, reported, ?_⟩
    rw [total]
    exact sum_dropped_le nonnegative

/-- A reset between gates, one of which is not unitary. -/
theorem diagonal_expectation_skewed :
    let program : Program ℝ :=
      ⟨2, [.apply ⟨.h, [0]⟩, .reset [0], .apply ⟨.matrix 1 (.ofRows [[1, 1], [0, 2]]), [1]⟩]⟩
    (∀ instruction ∈ program.instructions, instruction.WellFormed 2) ∧
      ∃ observable value states, Observable.pauliZ 2 = .ok observable ∧
        expectation program observable = .ok (.expectation value) ∧ distribution program = .ok states ∧
        |value - ((states.filterMap Sample.outcome?).map fun (bits, probability) =>
          probability * Basis.sign bits).sum| ≤ 2 ^ 2 * 1e-12 := by
  intro program
  have wellFormed (instruction : Instruction ℝ) (member : instruction ∈ program.instructions) :
      instruction.WellFormed 2 := by
    simp only [program, List.mem_cons, List.not_mem_nil, or_false] at member
    rcases member with rfl | rfl | rfl
    · exact ⟨rfl, ⟨_, rfl, rfl, rfl⟩, by decide⟩
    · exact fun qubit listed => List.mem_singleton.1 listed ▸ Nat.two_pos
    · exact ⟨rfl, ⟨_, rfl, rfl, rfl⟩, by decide⟩
  obtain ⟨_, _, _, possible, agrees⟩ := diagonal_expectation program wellFormed
  obtain ⟨observable, made⟩ := possible (by decide)
  obtain ⟨value, states, expected, _, reported, close⟩ := agrees observable made
  exact ⟨wellFormed, observable, value, states, made, expected, reported, close⟩

end Simulator
end CircuitRunner
