import Mathlib
import CircuitRunner.Proofs.Kernel

/-! A matrix on some of the qubits, applied in place. The basis states that differ in the operand bits
only form a group; a sweep over the groups reads all amplitudes of one before it writes any, and leaves
the other groups alone. What it leaves behind is the state that the matrix makes of the old one, in any
arithmetic and for any operands. -/
namespace CircuitRunner.State

section Writes
variable {K : Type} {n : Nat}

def write (index : Nat) (value : K) (state : State K n) : State K n :=
  ⟨state.amplitudes.setIfInBounds index value⟩

def writeAll (target : Nat → Nat) (value : Nat → K) (state : State K n) (rows : List Nat) : State K n :=
  rows.foldl (fun state row => state.write (target row) (value row)) state

variable [Zero K]

theorem amplitude_write_of_ne (state : State K n) {index target : Nat} (apart : target ≠ index) (value : K) :
    (state.write target value).amplitude index = state.amplitude index := by
  unfold amplitude write
  split
  · exact Vector.getElem_setIfInBounds_ne _ apart
  · rfl

theorem amplitude_write_self (state : State K n) {index : Nat} (inside : index < Basis.size n) (value : K) :
    (state.write index value).amplitude index = value := by
  rw [amplitude, dif_pos inside]
  exact Vector.getElem_setIfInBounds_self _

theorem amplitude_writeAll_of_ne {target : Nat → Nat} {rows : List Nat} {index : Nat}
    (apart : ∀ row ∈ rows, target row ≠ index) (value : Nat → K) (state : State K n) :
    (state.writeAll target value rows).amplitude index = state.amplitude index := by
  induction rows generalizing state with
  | nil => rfl
  | cons row rows ih =>
    obtain ⟨first, others⟩ := List.forall_mem_cons.1 apart
    have later := ih others (state.write (target row) (value row))
    exact later.trans (state.amplitude_write_of_ne first (value row))

theorem amplitude_writeAll_last {target : Nat → Nat} {after : List Nat} {row : Nat}
    (inside : target row < Basis.size n) (last : ∀ later ∈ after, target later ≠ target row)
    (value : Nat → K) (state : State K n) (before : List Nat) :
    (state.writeAll target value (before ++ row :: after)).amplitude (target row) = value row := by
  rw [writeAll, List.foldl_append, List.foldl_cons]
  refine (amplitude_writeAll_of_ne last value _).trans ?_
  exact amplitude_write_self _ inside _

end Writes

section Sweep
variable {K : Type} {n : Nat} [Zero K] [Add K] [Mul K] (operator : Operator K) (qubits : List Nat)

/-- A row of a matrix times the amplitudes of a group, which is given by its state without operand bits. -/
def groupProduct (state : State K n) (base row : Nat) : K :=
  accumulate <| (List.range (Basis.size qubits.length)).map fun column =>
    operator.entry row column * state.amplitude (base ||| Basis.deal qubits column)

/-- Replaces the amplitudes of one group. All products are taken of the state before the first write. -/
def sweepGroup (state : State K n) (base : Nat) : State K n :=
  state.writeAll (base ||| Basis.deal qubits ·) (groupProduct operator qubits state base)
    (List.range (Basis.size qubits.length))

def sweep (state : State K n) : State K n :=
  let mask := Basis.deal qubits (Basis.size qubits.length - 1)
  ((List.range (Basis.size n)).filter (· &&& mask == 0)).foldl (sweepGroup operator qubits) state

theorem amplitude_applyOperator_group (state : State K n) {index : Nat} (inside : index < Basis.size n) :
    (state.applyOperator operator qubits).amplitude index =
      groupProduct operator qubits state (Basis.clearAll qubits index) (Basis.gather qubits index) :=
  amplitude_tabulate _ inside

theorem clearAll_group {base : Nat} (cleared : Basis.clearAll qubits base = base) (row : Nat) :
    Basis.clearAll qubits (base ||| Basis.deal qubits row) = base := by
  have scattered := Basis.clearAll_scatter qubits row base
  rw [Basis.scatter, cleared] at scattered
  exact scattered

theorem amplitude_sweepGroup_other (state : State K n) {base index : Nat}
    (cleared : Basis.clearAll qubits base = base) (apart : Basis.clearAll qubits index ≠ base) :
    (sweepGroup operator qubits state base).amplitude index = state.amplitude index := by
  apply amplitude_writeAll_of_ne
  intro row _ same
  exact apart (same ▸ clearAll_group qubits cleared row)

theorem amplitude_sweepGroup_own (state : State K n) {index : Nat} (inside : index < Basis.size n) :
    (sweepGroup operator qubits state (Basis.clearAll qubits index)).amplitude index =
      groupProduct operator qubits state (Basis.clearAll qubits index) (Basis.gather qubits index) := by
  have target : Basis.clearAll qubits index ||| Basis.deal qubits (Basis.gather qubits index) = index :=
    Basis.scatter_gather qubits index
  obtain ⟨before, after, split⟩ := List.append_of_mem (List.mem_range.2 (Basis.gather_lt qubits index))
  have ascending := List.pairwise_lt_range (n := Basis.size qubits.length)
  rw [split] at ascending
  obtain ⟨above, _⟩ := List.pairwise_cons.1 (List.pairwise_append.1 ascending).2.1
  -- Where operands repeat, several rows are written to one place, and this is the last of them.
  have last : ∀ later ∈ after, Basis.clearAll qubits index ||| Basis.deal qubits later ≠
      Basis.clearAll qubits index ||| Basis.deal qubits (Basis.gather qubits index) := by
    intro later member same
    have listed : later ∈ List.range (Basis.size qubits.length) := by
      rw [split]
      exact List.mem_append_right _ (List.mem_cons_of_mem _ member)
    have bounded : later ≤ Basis.gather qubits index := by
      refine Basis.le_gather (List.mem_range.1 listed) fun bit set => ?_
      rw [← target, ← same, Nat.testBit_or, set, Bool.or_true]
    exact absurd (above later member) (Nat.not_lt.2 bounded)
  have written := amplitude_writeAll_last (by rw [target]; exact inside) last
    (groupProduct operator qubits state (Basis.clearAll qubits index)) state before
  rw [target] at written
  rw [sweepGroup, split]
  exact written

/-- After some of the groups, their amplitudes are the new ones and all others are as they were. -/
theorem amplitude_sweepGroups {bases : List Nat} (cleared : ∀ base ∈ bases, Basis.clearAll qubits base = base)
    (distinct : bases.Nodup) (state : State K n) {index : Nat} (inside : index < Basis.size n) :
    (bases.foldl (sweepGroup operator qubits) state).amplitude index =
      if Basis.clearAll qubits index ∈ bases then
        groupProduct operator qubits state (Basis.clearAll qubits index) (Basis.gather qubits index)
      else state.amplitude index := by
  induction bases generalizing state with
  | nil => rfl
  | cons base rest ih =>
    obtain ⟨fresh, distinct⟩ := List.nodup_cons.1 distinct
    obtain ⟨own, others⟩ := List.forall_mem_cons.1 cleared
    rw [List.foldl_cons, ih others distinct]
    by_cases same : Basis.clearAll qubits index = base
    · subst same
      rw [if_neg fresh, if_pos List.mem_cons_self]
      exact amplitude_sweepGroup_own operator qubits state inside
    · -- The sweep reads another group here, which the first one has not touched.
      have untouched (column : Nat) : (sweepGroup operator qubits state base).amplitude
          (Basis.clearAll qubits index ||| Basis.deal qubits column) =
            state.amplitude (Basis.clearAll qubits index ||| Basis.deal qubits column) := by
        apply amplitude_sweepGroup_other operator qubits state own
        rw [clearAll_group qubits (Basis.clearAll_clearAll qubits index)]
        exact same
      have product : groupProduct operator qubits (sweepGroup operator qubits state base)
          (Basis.clearAll qubits index) = groupProduct operator qubits state (Basis.clearAll qubits index) := by
        funext row
        simp only [groupProduct, untouched]
      rw [product, amplitude_sweepGroup_other operator qubits state own same]
      simp only [List.mem_cons, same, false_or]

theorem sweep_eq_applyOperator (state : State K n) :
    state.sweep operator qubits = state.applyOperator operator qubits := by
  apply ext_amplitude
  intro index inside
  have swept (base : Nat) : base ∈ (List.range (Basis.size n)).filter
      (· &&& Basis.deal qubits (Basis.size qubits.length - 1) == 0) ↔
        base < Basis.size n ∧ Basis.clearAll qubits base = base := by
    rw [List.mem_filter, List.mem_range, beq_iff_eq, Basis.and_deal_full]
  rw [sweep, amplitude_sweepGroups operator qubits (fun base member => ((swept base).1 member).2)
    (List.nodup_range.filter _) state inside, if_pos, amplitude_applyOperator_group operator qubits state inside]
  exact (swept _).2 ⟨Basis.clearAll_lt qubits inside, Basis.clearAll_clearAll qubits index⟩

end Sweep

/-- A matrix on distinct qubits acts on their bits and leaves the others alone: the new amplitude of a
basis state is a row of the matrix, given by the operand bits of the state, times the old amplitudes of
the states that have the column in these bits. The sweep in place computes the same. -/
theorem applyOperator_tensor_action {K : Type} [CommRing K] {n : Nat} (state : State K n)
    (operator : Operator K) (qubits : List Nat) (distinct : qubits.Nodup)
    (inside : ∀ qubit ∈ qubits, qubit < n) :
    state.sweep operator qubits = state.applyOperator operator qubits ∧
      ∀ index < Basis.size n, ∃ row < Basis.size qubits.length, ∃ source : Nat → Nat,
        (∀ (position : Nat) (bound : position < qubits.length),
          row.testBit (qubits.length - 1 - position) = index.testBit qubits[position]) ∧
        (∀ column < Basis.size qubits.length, source column < Basis.size n ∧
          (∀ (position : Nat) (bound : position < qubits.length),
            (source column).testBit qubits[position] = column.testBit (qubits.length - 1 - position)) ∧
          ∀ bit ∉ qubits, (source column).testBit bit = index.testBit bit) ∧
        (state.applyOperator operator qubits).amplitude index =
          ∑ column ∈ Finset.range (Basis.size qubits.length),
            operator.entry row column * state.amplitude (source column) := by
  refine ⟨sweep_eq_applyOperator operator qubits state, fun index small => ?_⟩
  refine ⟨Basis.gather qubits index, Basis.gather_lt qubits index, (Basis.scatter qubits · index), ?_, ?_, ?_⟩
  · intro position bound
    exact Basis.testBit_gather_position bound index
  · intro column _
    refine ⟨Basis.scatter_lt inside small column, ?_, ?_⟩
    · intro position bound
      rw [Basis.testBit_scatter_of_mem (List.getElem_mem bound)]
      exact Basis.testBit_deal_position distinct bound column
    · intro bit unlisted
      exact Basis.testBit_scatter_of_notMem unlisted column index
  · exact amplitude_applyOperator state operator qubits small

/-- Two operands apart from each other, the higher one first. -/
theorem applyOperator_tensor_action_spread :
    let state : State Int 3 := tabulate 3 fun index => index
    let operator : Operator Int := .ofRows [[1, 2, 3, 4], [5, 6, 7, 8], [9, 10, 11, 12], [13, 14, 15, 16]]
    [2, 0].Nodup ∧ (∀ qubit ∈ [2, 0], qubit < 3) ∧ (state.sweep operator [2, 0]).amplitude 6 = 198 := by
  intro state operator
  refine ⟨by decide, by decide, ?_⟩
  obtain ⟨swept, acts⟩ := applyOperator_tensor_action state operator [2, 0] (by decide) (by decide)
  obtain ⟨row, small, source, rowBits, sources, value⟩ := acts 6 (by decide)
  have located : ∀ number < 8, number =
      4 * (number.testBit 2).toNat + 2 * (number.testBit 1).toNat + (number.testBit 0).toNat := by decide
  have third : row = 2 := by
    have high : row.testBit 1 = true := (rowBits 0 (by decide)).trans (by decide)
    have low : row.testBit 0 = false := (rowBits 1 (by decide)).trans (by decide)
    have top : row.testBit 2 = false := Basis.testBit_of_size_le small (Nat.le_refl 2)
    have digits := located row (Nat.lt_trans small (by decide))
    rw [high, low, top] at digits
    exact digits
  have place (column : Nat) (listed : column < 4) :
      source column = 4 * (column.testBit 1).toNat + 2 + (column.testBit 0).toNat := by
    obtain ⟨bound, operand, kept⟩ := sources column listed
    have two : (source column).testBit 2 = column.testBit 1 := operand 0 (by decide)
    have zero : (source column).testBit 0 = column.testBit 0 := operand 1 (by decide)
    have one : (source column).testBit 1 = true := kept 1 (by decide)
    have digits := located _ bound
    rw [two, one, zero] at digits
    exact digits
  rw [swept, value, third]
  change ∑ column ∈ Finset.range 4, _ = _
  rw [Finset.sum_congr rfl fun column member => by rw [place column (Finset.mem_range.1 member)]]
  decide +kernel

end CircuitRunner.State
