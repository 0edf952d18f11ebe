import Mathlib
import CircuitRunner.Proofs.Kernel

/-! Gates under a control. The control is the leading bit of a matrix index, so the matrix of the inner gate
stands below the identity, and only basis states in which the control is one are moved. They are moved as
by the inner gate alone, whether that has a rule of its own or not. -/
namespace CircuitRunner

namespace Basis

theorem gather_cons (qubit : Nat) (rest : List Nat) (index : Nat) :
    gather (qubit :: rest) index = (index.testBit qubit).toNat * size rest.length + gather rest index := by
  induction rest using List.reverseRecOn with
  | nil => simp [gather, size]
  | append_singleton rest last ih =>
    rw [← List.cons_append, gather_concat, ih, gather_concat, List.length_append, List.length_singleton, size_succ]
    ring

/-- Only the bits below the number of listed qubits are dealt. -/
theorem deal_congr {qubits : List Nat} {first second : Nat}
    (same : ∀ bit < qubits.length, first.testBit bit = second.testBit bit) :
    deal qubits first = deal qubits second := by
  induction qubits with
  | nil => rfl
  | cons qubit rest ih =>
    have leading : first.testBit rest.length = second.testBit rest.length := same _ (Nat.lt_succ_self _)
    have others : deal rest first = deal rest second := ih fun bit low => same bit (Nat.lt_succ_of_lt low)
    rw [deal, deal, leading, others]

/-- A leading qubit that is one already stays so when its digit is one. -/
theorem scatter_cons_of_set {qubit : Nat} {rest : List Nat} (apart : qubit ∉ rest) {number : Nat}
    (small : number < size rest.length) {index : Nat} (set : index.testBit qubit = true) :
    scatter (qubit :: rest) (size rest.length + number) index = scatter rest number index := by
  have leading : (size rest.length + number).testBit rest.length = true := by
    rw [size, Nat.pow_eq, Nat.testBit_two_pow_add_eq, testBit_of_size_le small le_rfl]
    rfl
  have others : deal rest (size rest.length + number) = deal rest number :=
    deal_congr fun bit low => Nat.testBit_two_pow_add_gt low number
  apply Nat.eq_of_testBit_eq
  intro bit
  by_cases same : qubit = bit
  · subst same
    rw [testBit_scatter_of_mem List.mem_cons_self, testBit_deal_cons, leading, testBit_scatter_of_notMem apart, set]
    simp
  · have dealt : (deal (qubit :: rest) (size rest.length + number)).testBit bit = (deal rest number).testBit bit := by
      rw [testBit_deal_cons, others, decide_eq_false same, Bool.and_false, Bool.false_or]
    rw [scatter, scatter, Nat.testBit_or, Nat.testBit_or, testBit_clearAll, testBit_clearAll, dealt]
    simp [Ne.symm same]

end Basis

namespace Operator
variable {K : Type} [Zero K] [One K]

/-- The block matrix of twice the size, with the identity above an operator. -/
structure Controls (size : Nat) (operator block : Operator K) : Prop where
  rows : block.rows = 2 * size
  columns : block.columns = 2 * size
  upper : ∀ row < size, ∀ column < 2 * size, block.entry row column = if row = column then 1 else 0
  left : ∀ row < size, ∀ column < size, block.entry (size + row) column = 0
  lower : ∀ row < size, ∀ column < size, block.entry (size + row) (size + column) = operator.entry row column

theorem exists_controlled {operator : Operator K} {size : Nat} (rows : operator.rows = size)
    (columns : operator.columns = size) :
    ∃ block, operator.controlled = some block ∧ Controls size operator block := by
  have square : operator.columns = operator.rows := columns.trans rows.symm
  rw [controlled, if_pos (.inl square)]
  refine ⟨_, rfl, ?_⟩
  simp only [rows]
  refine ⟨rfl, rfl, ?_, ?_, ?_⟩
  · intro row inRows column inColumns
    rw [entry_tabulate _ _ _ (by omega) inColumns, if_pos (.inl inRows)]
  · intro row inRows column inColumns
    rw [entry_tabulate _ _ _ (by omega) (by omega), if_pos (.inr inColumns), if_neg (by omega)]
  · intro row inRows column inColumns
    rw [entry_tabulate _ _ _ (by omega) (by omega), if_neg (by omega), if_pos columns,
      Nat.add_sub_cancel_left, Nat.add_sub_cancel_left]

end Operator

namespace Gate
variable {R : Type}

def Sized : Gate R → Prop
  | .controlled inner => inner.Sized
  | .matrix arity operator => operator.rows = Basis.size arity ∧ operator.columns = Basis.size arity
  | _ => True

variable [Scalar R]

theorem operator_controlled {inner : Gate R} {operator block : Operator (ComplexNumber R)}
    (found : inner.operator = .ok operator) (made : operator.controlled = some block) :
    (Gate.controlled inner).operator = .ok block := by
  simp only [Gate.operator, found, made]

theorem Sized.operator {gate : Gate R} (sized : gate.Sized) :
    ∃ operator, gate.operator = .ok operator ∧
      operator.rows = Basis.size gate.arity ∧ operator.columns = Basis.size gate.arity := by
  induction gate with
  | controlled inner ih =>
    obtain ⟨operator, found, rows, columns⟩ := ih sized
    obtain ⟨block, made, controls⟩ := Operator.exists_controlled rows columns
    have double : 2 * Basis.size inner.arity = Basis.size (inner.arity + 1) := (Basis.size_succ _).symm
    exact ⟨block, operator_controlled found made, controls.rows.trans double, controls.columns.trans double⟩
  | matrix arity operator => exact ⟨operator, rfl, sized⟩
  | i | h | x | y | z | s | t | rx | ry | rz | ph | cnot | csign | swap | iswap | ccnot => exact ⟨_, rfl, rfl, rfl⟩

end Gate

namespace State

section General
variable {K : Type} [CommRing K] {n : Nat} (state : State K n)

theorem amplitude_controlled {operator block : Operator K} {control : Nat} {operands : List Nat}
    (controls : Operator.Controls (Basis.size operands.length) operator block) (apart : control ∉ operands)
    {index : Nat} (bound : index < Basis.size n) :
    (state.applyOperator block (control :: operands)).amplitude index =
      if index.testBit control then (state.applyOperator operator operands).amplitude index
      else state.amplitude index := by
  have row := Basis.gather_lt operands index
  have gathered := Basis.gather_cons control operands index
  have own := Basis.scatter_gather (control :: operands) index
  rw [amplitude_applyOperator state block _ bound, List.length_cons, Basis.size_succ]
  cases value : index.testBit control with
  | false =>
    rw [value, Bool.toNat_false, Nat.zero_mul, Nat.zero_add] at gathered
    rw [gathered] at own ⊢
    rw [if_neg Bool.false_ne_true, Finset.sum_eq_single_of_mem (Basis.gather operands index)]
    · rw [controls.upper _ row _ (by omega), if_pos rfl, one_mul, own]
    · exact Finset.mem_range.2 (by omega)
    · intro column member other
      rw [controls.upper _ row _ (Finset.mem_range.1 member), if_neg (Ne.symm other), zero_mul]
  | true =>
    rw [value, Bool.toNat_true, Nat.one_mul] at gathered
    -- The columns in which the control is zero come first, and the lower block has nothing there.
    have absent : ∑ column ∈ Finset.range (Basis.size operands.length),
        block.entry (Basis.gather (control :: operands) index) column *
          state.amplitude (Basis.scatter (control :: operands) column index) = 0 := by
      apply Finset.sum_eq_zero
      intro column member
      rw [gathered, controls.left _ row _ (Finset.mem_range.1 member), zero_mul]
    rw [if_pos rfl, amplitude_applyOperator state operator _ bound, two_mul, Finset.sum_range_add, absent, zero_add]
    apply Finset.sum_congr rfl
    intro column member
    have small := Finset.mem_range.1 member
    rw [gathered, controls.lower _ row _ small, Basis.scatter_cons_of_set apart small value]

end General

variable {n : Nat}

/-- A controlled gate keeps the amplitudes of the basis states in which the control is zero, and gives the
others the amplitudes that its inner gate gives them. Operands of the inner gate may repeat. -/
theorem apply_controlled (state : State (ComplexNumber ℝ) n) (gate : Gate ℝ) (sized : gate.Sized) (control : Nat)
    (operands : List Nat) (arity : operands.length = gate.arity) (apart : control ∉ operands)
    (inside : ∀ operand ∈ control :: operands, operand < n) :
    ∃ inner outer, state.apply ⟨gate, operands⟩ = .ok inner ∧
      state.apply ⟨.controlled gate, control :: operands⟩ = .ok outer ∧
      ∀ index < Basis.size n, outer.amplitude index =
        if index.testBit control then inner.amplitude index else state.amplitude index := by
  obtain ⟨operator, found, rows, columns⟩ := sized.operator
  rw [← arity] at rows columns
  obtain ⟨block, made, controls⟩ := Operator.exists_controlled rows columns
  have double : Basis.size (control :: operands).length = 2 * Basis.size operands.length := Basis.size_succ _
  have length : (control :: operands).length = (Gate.controlled gate).arity := congrArg (· + 1) arity
  refine ⟨state.applyOperator operator operands, state.applyOperator block (control :: operands), ?_, ?_, ?_⟩
  · refine state.apply_eq_applyOperator found arity ⟨rows.ge, columns.ge⟩ fun operand listed => ?_
    exact inside operand (List.mem_cons_of_mem _ listed)
  · apply state.apply_eq_applyOperator (Gate.operator_controlled found made) length _ inside
    rw [double, controls.rows, controls.columns]
    exact ⟨le_rfl, le_rfl⟩
  · intro index bound
    exact state.amplitude_controlled controls apart bound

/-- Two controls over an exchange, which has a rule of its own, on qubits out of order. -/
theorem apply_controlled_nested :
    let state : State (ComplexNumber ℝ) 3 := tabulate 3 fun index => ComplexNumber.ofReal index
    ∃ outer, state.apply ⟨.controlled (.controlled .x), [2, 0, 1]⟩ = .ok outer ∧
      outer.amplitude 5 = ComplexNumber.ofReal 7 ∧ outer.amplitude 6 = ComplexNumber.ofReal 6 ∧
      outer.amplitude 1 = ComplexNumber.ofReal 1 := by
  intro state
  have original (index : Nat) (bound : index < 8) : state.amplitude index = ComplexNumber.ofReal (index : ℝ) :=
    amplitude_tabulate _ bound
  obtain ⟨single, _, once, applied, inner⟩ :=
    apply_controlled state .x trivial 0 [1] rfl (by decide) (by decide)
  obtain ⟨double, outer, twice, nested, acts⟩ :=
    apply_controlled state (.controlled .x) trivial 2 [0, 1] rfl (by decide) (by decide)
  cases applied.symm.trans twice
  cases (within_ok (state.pauliX 1) (by decide)).symm.trans once
  have place : Basis.flip 1 5 = 7 := by decide
  have exchanged := state.amplitude_pauliX 1 (show 5 < Basis.size 3 by decide)
  rw [place, original 7 (by decide), Nat.cast_ofNat] at exchanged
  refine ⟨outer, nested, ?_, ?_, ?_⟩
  · rw [acts 5 (by decide), if_pos (by decide), inner 5 (by decide), if_pos (by decide), exchanged]
  · rw [acts 6 (by decide), if_pos (by decide), inner 6 (by decide), if_neg (by decide), original 6 (by decide),
      Nat.cast_ofNat]
  · rw [acts 1 (by decide), if_neg (by decide), original 1 (by decide), Nat.cast_one]

end State
end CircuitRunner
