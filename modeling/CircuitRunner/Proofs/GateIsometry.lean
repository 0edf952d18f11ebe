import Mathlib
import CircuitRunner.Proofs.ControlledGate
import CircuitRunner.Proofs.LoweredInstruction
import CircuitRunner.Proofs.StateVector

/-! Gates keep the norm of a state, also where their operands coincide. A matrix on two qubits then
acts on the one qubit through a smaller matrix, which is unitary as well for every gate of a circuit. -/
namespace CircuitRunner

namespace ComplexNumber

theorem normSq_mul (z w : ComplexNumber ℝ) : (z * w).normSq = z.normSq * w.normSq := by
  simp only [normSq, mul_re, mul_im]
  ring

theorem normSq_phase (angle : ℝ) : (phase angle).normSq = 1 := by
  have unit := Real.cos_sq_add_sin_sq angle
  simp only [sq] at unit
  exact unit

theorem phase_neg (angle : ℝ) : phase (-angle) = (phase angle).conjugate := by
  ext
  · exact Real.cos_neg angle
  · exact Real.sin_neg angle

theorem conjugate_mul_self (z : ComplexNumber ℝ) : z.conjugate * z = ofReal z.normSq := by
  ext
  · simp only [mul_re, conjugate, ofReal, normSq]
    ring
  · simp only [mul_im, conjugate, ofReal]
    ring

theorem ofReal_one : ofReal (1 : ℝ) = 1 := rfl

theorem normSq_zero : (0 : ComplexNumber ℝ).normSq = 0 := by
  simp [normSq]

theorem normSq_one : (1 : ComplexNumber ℝ).normSq = 1 := by
  simp [normSq]

theorem normSq_neg (z : ComplexNumber ℝ) : (-z).normSq = z.normSq := by
  simp [normSq]

theorem normSq_imaginaryUnit : (imaginaryUnit : ComplexNumber ℝ).normSq = 1 := by
  simp [normSq, imaginaryUnit]

theorem conjugate_zero : (0 : ComplexNumber ℝ).conjugate = 0 := by
  ext <;> simp [conjugate]

theorem conjugate_one : (1 : ComplexNumber ℝ).conjugate = 1 := by
  ext <;> simp [conjugate]

end ComplexNumber

open ComplexNumber

namespace State
variable {n : Nat} (state : State (ComplexNumber ℝ) n)

theorem squaredNorm_permute {source : Nat → Nat}
    (bounded : ∀ index < Basis.size n, source index < Basis.size n)
    (involutive : ∀ index, source (source index) = index) :
    (state.permute source).squaredNorm = state.squaredNorm := by
  unfold squaredNorm
  refine Finset.sum_nbij' source source ?_ ?_ ?_ ?_ ?_
  · intro index member
    exact Finset.mem_range.2 (bounded index (Finset.mem_range.1 member))
  · intro index member
    exact Finset.mem_range.2 (bounded index (Finset.mem_range.1 member))
  · intro index _
    exact involutive index
  · intro index _
    exact involutive index
  · intro index member
    rw [permute, amplitude_tabulate _ (Finset.mem_range.1 member)]

theorem squaredNorm_controlledX (controls : List Nat) {target : Nat} (inside : target < n) :
    (state.controlledX controls target).squaredNorm = state.squaredNorm :=
  state.squaredNorm_permute (fun _ => Basis.flipIf_lt controls inside) (Basis.flipIf_flipIf controls target)

end State

/-- The columns of the matrix `[[a, b], [c, d]]` have norm one and are orthogonal. -/
structure UnitaryPair (a b c d : ComplexNumber ℝ) : Prop where
  first : a.normSq + c.normSq = 1
  second : b.normSq + d.normSq = 1
  apart : a.conjugate * b + c.conjugate * d = 0

namespace UnitaryPair
variable {a b c d : ComplexNumber ℝ}

theorem apart_symm (pair : UnitaryPair a b c d) : b.conjugate * a + d.conjugate * c = 0 := by
  have re := congrArg ComplexNumber.re pair.apart
  have im := congrArg ComplexNumber.im pair.apart
  simp only [add_re, add_im, mul_re, mul_im, conjugate, zero_re, zero_im] at re im
  ext
  · simp only [add_re, mul_re, conjugate, zero_re]
    linarith
  · simp only [add_im, mul_im, conjugate, zero_im]
    linarith

theorem first_product (pair : UnitaryPair a b c d) : a.conjugate * a + c.conjugate * c = 1 := by
  rw [conjugate_mul_self, conjugate_mul_self, ← ofReal_one, ← pair.first]
  ext <;> simp [ofReal]

theorem second_product (pair : UnitaryPair a b c d) : b.conjugate * b + d.conjugate * d = 1 := by
  rw [conjugate_mul_self, conjugate_mul_self, ← ofReal_one, ← pair.second]
  ext <;> simp [ofReal]

theorem smul (pair : UnitaryPair a b c d) {factor : ComplexNumber ℝ} (unit : factor.normSq = 1) :
    UnitaryPair (factor * a) (factor * b) (factor * c) (factor * d) := by
  refine ⟨?_, ?_, ?_⟩
  · rw [normSq_mul, normSq_mul, unit, one_mul, one_mul, pair.first]
  · rw [normSq_mul, normSq_mul, unit, one_mul, one_mul, pair.second]
  · have pulled : (factor * a).conjugate * (factor * b) + (factor * c).conjugate * (factor * d) =
        factor.conjugate * factor * (a.conjugate * b + c.conjugate * d) := by
      ext <;> simp only [add_re, add_im, mul_re, mul_im, conjugate] <;> ring
    rw [pulled, pair.apart, mul_zero]

/-- A rotation between two amplitudes with an imaginary exchange. -/
theorem rotation {kept moved : ℝ} (unit : kept * kept + moved * moved = 1) :
    UnitaryPair (ofReal kept) (ofImaginary moved) (ofImaginary moved) (ofReal kept) := by
  refine ⟨?_, ?_, ?_⟩
  · simpa [normSq, ofReal, ofImaginary] using unit
  · rw [add_comm] at unit
    simpa [normSq, ofReal, ofImaginary] using unit
  · ext <;> simp [conjugate, ofReal, ofImaginary, mul_comm]

theorem diagonal (firstUnit : a.normSq = 1) (secondUnit : d.normSq = 1) : UnitaryPair a 0 0 d := by
  refine ⟨?_, ?_, ?_⟩
  · rw [firstUnit, normSq_zero, add_zero]
  · rw [secondUnit, normSq_zero, zero_add]
  · rw [conjugate_zero, mul_zero, zero_mul, add_zero]

theorem antidiagonal (firstUnit : b.normSq = 1) (secondUnit : c.normSq = 1) : UnitaryPair 0 b c 0 := by
  refine ⟨?_, ?_, ?_⟩
  · rw [secondUnit, normSq_zero, zero_add]
  · rw [firstUnit, normSq_zero, add_zero]
  · rw [conjugate_zero, mul_zero, zero_mul, add_zero]

theorem hadamard : UnitaryPair (ofReal Scalar.sqrtHalf) (ofReal Scalar.sqrtHalf) (ofReal Scalar.sqrtHalf)
    (-ofReal Scalar.sqrtHalf) := by
  refine ⟨?_, ?_, ?_⟩
  · simp only [normSq, ofReal, mul_zero, add_zero, sqrtHalf_mul_self]
    norm_num
  · simp only [normSq, ofReal, neg_re, neg_im, neg_mul_neg, mul_zero, add_zero, sqrtHalf_mul_self]
    norm_num
  · ext <;> simp [conjugate, ofReal]

theorem rotationY {kept moved : ℝ} (unit : kept * kept + moved * moved = 1) :
    UnitaryPair (ofReal kept) (ofReal (-moved)) (ofReal moved) (ofReal kept) := by
  refine ⟨?_, ?_, ?_⟩
  · simpa [normSq, ofReal] using unit
  · rw [add_comm] at unit
    simpa [normSq, ofReal] using unit
  · ext <;> simp [conjugate, ofReal, mul_comm]

/-- A rotation whose exchange is turned by opposite phases. -/
theorem rotationXY {kept moved : ℝ} (unit : kept * kept + moved * moved = 1) (angle : ℝ) :
    UnitaryPair (ofReal kept) (ofImaginary moved * phase (-angle)) (ofImaginary moved * phase angle)
      (ofReal kept) := by
  have untwisted := rotation unit
  refine ⟨?_, ?_, ?_⟩
  · rw [normSq_mul, normSq_phase, mul_one, untwisted.first]
  · rw [normSq_mul, normSq_phase, mul_one, untwisted.second]
  · rw [phase_neg]
    ext <;> simp only [add_re, add_im, mul_re, mul_im, conjugate, ofReal, ofImaginary, zero_re, zero_im] <;>
      ring

/-- The matrix `[[α, -β*], [β, α*]]` of two amplitudes of norm one. -/
theorem amplitudes {alphaRe alphaIm betaRe betaIm : ℝ}
    (unit : alphaRe ^ 2 + alphaIm ^ 2 + betaRe ^ 2 + betaIm ^ 2 = 1) :
    UnitaryPair ⟨alphaRe, alphaIm⟩ ⟨-betaRe, betaIm⟩ ⟨betaRe, betaIm⟩ ⟨alphaRe, -alphaIm⟩ := by
  refine ⟨?_, ?_, ?_⟩
  · simp only [normSq]
    linarith
  · simp only [normSq]
    linarith
  · ext
    · simp only [add_re, mul_re, conjugate, zero_re]
      ring
    · simp only [add_im, mul_im, conjugate, zero_im]
      ring

end UnitaryPair

namespace Operator

theorem matrix_unitary {operator : Operator (ComplexNumber ℝ)} {count : Nat}
    (columns : ∀ first < Basis.size count, ∀ second < Basis.size count,
      ∑ row ∈ Finset.range (Basis.size count),
        (operator.entry row first).conjugate * operator.entry row second =
          if first = second then 1 else 0) :
    operator.matrix count ∈ Matrix.unitaryGroup (Fin (Basis.size count)) ℂ := by
  rw [Matrix.mem_unitaryGroup_iff']
  ext first second
  have sums := congrArg toComplex (columns first first.isLt second second.isLt)
  rw [map_sum, Finset.sum_range] at sums
  rw [Matrix.mul_apply, Matrix.one_apply]
  refine Eq.trans (Finset.sum_congr rfl fun row _ => ?_) (sums.trans ?_)
  · rw [map_mul, toComplex_conjugate]
    rfl
  · by_cases same : first = second
    · rw [if_pos same, if_pos (congrArg Fin.val same), map_one]
    · rw [if_neg same, if_neg (mt Fin.ext same), map_zero]

/-- Applying the operator to so many qubits of any register, coinciding ones included, keeps the norm. -/
def KeepsNorm (count : Nat) (operator : Operator (ComplexNumber ℝ)) : Prop :=
  ∀ (n : Nat) (state : State (ComplexNumber ℝ) n) (qubits : List Nat), qubits.length = count →
    (∀ qubit ∈ qubits, qubit < n) → (state.applyOperator operator qubits).squaredNorm = state.squaredNorm

theorem squaredNorm_of_unitary {operator : Operator (ComplexNumber ℝ)} (qubits : List Nat) {n : Nat}
    (unitary : operator.matrix qubits.length ∈ Matrix.unitaryGroup (Fin (Basis.size qubits.length)) ℂ)
    (distinct : qubits.Nodup) (inside : ∀ qubit ∈ qubits, qubit < n) (state : State (ComplexNumber ℝ) n) :
    (state.applyOperator operator qubits).squaredNorm = state.squaredNorm :=
  State.squaredNorm_of_unitary (Basis.placed_unitary distinct inside unitary)
    (state.vector_applyOperator operator distinct inside)

theorem unitary_single {a b c d : ComplexNumber ℝ} (pair : UnitaryPair a b c d) :
    (ofRows [[a, b], [c, d]]).matrix 1 ∈ Matrix.unitaryGroup (Fin (Basis.size 1)) ℂ := by
  apply matrix_unitary
  intro first firstInside second secondInside
  change first < 2 at firstInside
  change second < 2 at secondInside
  change ∑ row ∈ Finset.range 2, _ = _
  rw [Finset.sum_range_succ, Finset.sum_range_one]
  interval_cases first <;> interval_cases second <;>
    simp [entry_ofRows, pair.first_product, pair.second_product, pair.apart, pair.apart_symm]

theorem matrix_unitary_pair {operator : Operator (ComplexNumber ℝ)}
    (columns : ∀ first < 4, ∀ second < 4,
      (operator.entry 0 first).conjugate * operator.entry 0 second +
        (operator.entry 1 first).conjugate * operator.entry 1 second +
        (operator.entry 2 first).conjugate * operator.entry 2 second +
        (operator.entry 3 first).conjugate * operator.entry 3 second = if first = second then 1 else 0) :
    operator.matrix 2 ∈ Matrix.unitaryGroup (Fin (Basis.size 2)) ℂ := by
  apply matrix_unitary
  intro first firstInside second secondInside
  change ∑ row ∈ Finset.range 4, _ = _
  simp only [Finset.sum_range_succ, Finset.sum_range_zero, zero_add]
  exact columns first firstInside second secondInside

/-- A matrix that mixes the outer two basis states of a pair of qubits and the inner two. -/
theorem unitary_crossed {a b c d p q r s : ComplexNumber ℝ} (outer : UnitaryPair p q r s)
    (inner : UnitaryPair a b c d) :
    (ofRows [[p, 0, 0, q], [0, a, b, 0], [0, c, d, 0], [r, 0, 0, s]]).matrix 2 ∈
      Matrix.unitaryGroup (Fin (Basis.size 2)) ℂ := by
  apply matrix_unitary_pair
  intro first firstInside second secondInside
  interval_cases first <;> interval_cases second <;>
    simp [entry_ofRows, conjugate_zero, inner.first_product, inner.second_product, inner.apart,
      inner.apart_symm, outer.first_product, outer.second_product, outer.apart, outer.apart_symm]

theorem unitary_controlled {a b c d : ComplexNumber ℝ} (pair : UnitaryPair a b c d) :
    (ofRows [[1, 0, 0, 0], [0, 1, 0, 0], [0, 0, a, b], [0, 0, c, d]]).matrix 2 ∈
      Matrix.unitaryGroup (Fin (Basis.size 2)) ℂ := by
  apply matrix_unitary_pair
  intro first firstInside second secondInside
  interval_cases first <;> interval_cases second <;>
    simp [entry_ofRows, conjugate_zero, conjugate_one, pair.first_product, pair.second_product, pair.apart,
      pair.apart_symm]

/-- What a matrix on two qubits does to one qubit that is listed twice. -/
noncomputable def merged (operator : Operator (ComplexNumber ℝ)) : Operator (ComplexNumber ℝ) :=
  .ofRows [[operator.entry 0 0, operator.entry 0 1 + operator.entry 0 2 + operator.entry 0 3],
    [operator.entry 3 0, operator.entry 3 1 + operator.entry 3 2 + operator.entry 3 3]]

theorem applyOperator_repeated {n : Nat} (state : State (ComplexNumber ℝ) n)
    (operator : Operator (ComplexNumber ℝ)) (qubit : Nat) :
    state.applyOperator operator [qubit, qubit] = state.applyOperator operator.merged [qubit] := by
  apply State.ext_amplitude
  intro index inside
  have zero : Basis.scatter [qubit, qubit] 0 index = Basis.scatter [qubit] 0 index :=
    Basis.scatter_repeated qubit index false false
  have one : Basis.scatter [qubit, qubit] 1 index = Basis.scatter [qubit] 1 index :=
    Basis.scatter_repeated qubit index false true
  have two : Basis.scatter [qubit, qubit] 2 index = Basis.scatter [qubit] 1 index :=
    Basis.scatter_repeated qubit index true false
  have three : Basis.scatter [qubit, qubit] 3 index = Basis.scatter [qubit] 1 index :=
    Basis.scatter_repeated qubit index true true
  rw [State.amplitude_applyOperator state operator _ inside,
    State.amplitude_applyOperator state operator.merged _ inside]
  change ∑ column ∈ Finset.range 4, _ = ∑ column ∈ Finset.range 2, _
  simp only [Finset.sum_range_succ, Finset.sum_range_zero, zero_add, zero, one, two, three]
  cases value : index.testBit qubit <;> simp [Basis.gather, value, merged, entry_ofRows] <;> ring

theorem keepsNorm_single {a b c d : ComplexNumber ℝ} (pair : UnitaryPair a b c d) :
    (ofRows [[a, b], [c, d]]).KeepsNorm 1 := by
  intro n state qubits length inside
  obtain ⟨qubit, rfl⟩ := List.length_eq_one_iff.1 length
  exact squaredNorm_of_unitary [qubit] (unitary_single pair) (List.nodup_singleton qubit) inside state

theorem keepsNorm_pair {operator : Operator (ComplexNumber ℝ)}
    (unitary : operator.matrix 2 ∈ Matrix.unitaryGroup (Fin (Basis.size 2)) ℂ)
    (repeated : operator.merged.KeepsNorm 1) : operator.KeepsNorm 2 := by
  intro n state qubits length inside
  obtain ⟨first, second, rfl⟩ := List.length_eq_two.1 length
  -- On a repeated qubit the action is no tensor product, so its norm needs a reason of its own.
  by_cases same : first = second
  · subst same
    rw [applyOperator_repeated]
    exact repeated n state [first] rfl fun qubit member => inside qubit (List.mem_cons_of_mem _ member)
  · exact squaredNorm_of_unitary [first, second] unitary (by simpa using same) inside state

theorem keepsNorm_crossed {a b c d p q r s : ComplexNumber ℝ} (outer : UnitaryPair p q r s)
    (inner : UnitaryPair a b c d) :
    (ofRows [[p, 0, 0, q], [0, a, b, 0], [0, c, d, 0], [r, 0, 0, s]]).KeepsNorm 2 := by
  apply keepsNorm_pair (unitary_crossed outer inner)
  have merges : (ofRows [[p, 0, 0, q], [0, a, b, 0], [0, c, d, 0], [r, 0, 0, s]]).merged =
      ofRows [[p, q], [r, s]] := by
    simp [merged, entry_ofRows]
  rw [merges]
  exact keepsNorm_single outer

theorem keepsNorm_controlled {a b c d : ComplexNumber ℝ} (pair : UnitaryPair a b c d)
    (unit : (c + d).normSq = 1) :
    (ofRows [[1, 0, 0, 0], [0, 1, 0, 0], [0, 0, a, b], [0, 0, c, d]]).KeepsNorm 2 := by
  apply keepsNorm_pair (unitary_controlled pair)
  have merges : (ofRows [[1, 0, 0, 0], [0, 1, 0, 0], [0, 0, a, b], [0, 0, c, d]]).merged =
      ofRows [[1, 0], [0, c + d]] := by
    simp [merged, entry_ofRows]
  rw [merges]
  exact keepsNorm_single (.diagonal normSq_one unit)

theorem tabulate_congr {K : Type} {rows columns : Nat} {first second : Nat → Nat → K}
    (same : ∀ row < rows, ∀ column < columns, first row column = second row column) :
    tabulate rows columns first = tabulate rows columns second := by
  unfold tabulate
  congr
  funext row
  congr
  funext column
  exact same row row.isLt column column.isLt

/-- Control over a matrix on one qubit puts it below the identity. -/
theorem controlled_ofRows (a b c d : ComplexNumber ℝ) :
    (ofRows [[a, b], [c, d]]).controlled =
      some (ofRows [[1, 0, 0, 0], [0, 1, 0, 0], [0, 0, a, b], [0, 0, c, d]]) := by
  have square : (ofRows [[a, b], [c, d]]).columns = (ofRows [[a, b], [c, d]]).rows := rfl
  rw [controlled, if_pos (Or.inl square)]
  refine congrArg some (show tabulate 4 4 _ = tabulate 4 4 _ from tabulate_congr ?_)
  intro row inRows column inColumns
  change row < 4 at inRows
  change column < 4 at inColumns
  interval_cases row <;> interval_cases column <;> simp [ofRows, entry_tabulate]

end Operator

def Gate.KeepsNorm (gate : Gate ℝ) : Prop :=
  ∀ (n : Nat) (state : State (ComplexNumber ℝ) n) (operands : List Nat), operands.length = gate.arity →
    (∀ operand ∈ operands, operand < n) →
    ∃ next, state.apply ⟨gate, operands⟩ = .ok next ∧ next.squaredNorm = state.squaredNorm

namespace Gate.KeepsNorm

theorem of_operator {gate : Gate ℝ} {operator : Operator (ComplexNumber ℝ)} {count : Nat}
    (arity : gate.arity = count) (found : gate.operator = .ok operator)
    (shape : operator.rows = Basis.size count ∧ operator.columns = Basis.size count)
    (keeps : operator.KeepsNorm count) : gate.KeepsNorm := by
  intro n state operands enough inside
  rw [arity] at enough
  refine ⟨state.applyOperator operator operands, ?_, keeps n state operands enough inside⟩
  apply state.apply_eq_applyOperator found (enough.trans arity.symm) _ inside
  rw [shape.1, shape.2, enough]
  exact ⟨le_rfl, le_rfl⟩

theorem ccnot : (Gate.ccnot : Gate ℝ).KeepsNorm := by
  intro n state operands arity inside
  obtain ⟨first, second, target, rfl⟩ := List.length_eq_three.1 arity
  exact ⟨state.controlledX [first, second] target, State.within_ok _ inside,
    state.squaredNorm_controlledX [first, second] (inside target (by simp))⟩

end Gate.KeepsNorm

inductive Gate.Paired (gate : Gate ℝ) : Prop
  | single {a b c d : ComplexNumber ℝ} (arity : gate.arity = 1)
      (found : gate.operator = .ok (.ofRows [[a, b], [c, d]])) (pair : UnitaryPair a b c d)
  | controlled {a b c d : ComplexNumber ℝ} (arity : gate.arity = 2)
      (found : gate.operator = .ok (.ofRows [[1, 0, 0, 0], [0, 1, 0, 0], [0, 0, a, b], [0, 0, c, d]]))
      (pair : UnitaryPair a b c d) (unit : (c + d).normSq = 1)
  | crossed {a b c d p q r s : ComplexNumber ℝ} (arity : gate.arity = 2)
      (found : gate.operator = .ok (.ofRows [[p, 0, 0, q], [0, a, b, 0], [0, c, d, 0], [r, 0, 0, s]]))
      (outer : UnitaryPair p q r s) (inner : UnitaryPair a b c d)
  | ccnot (same : gate = .ccnot)

namespace Gate.Paired

theorem keepsNorm {gate : Gate ℝ} (paired : gate.Paired) : gate.KeepsNorm := by
  cases paired with
  | single arity found pair => exact .of_operator arity found ⟨rfl, rfl⟩ (Operator.keepsNorm_single pair)
  | controlled arity found pair unit =>
    exact .of_operator arity found ⟨rfl, rfl⟩ (Operator.keepsNorm_controlled pair unit)
  | crossed arity found outer inner =>
    exact .of_operator arity found ⟨rfl, rfl⟩ (Operator.keepsNorm_crossed outer inner)
  | ccnot same =>
    rw [same]
    exact .ccnot

end Gate.Paired

namespace GateKind

/-- The two amplitudes that make up a matrix have norm one; other gates are free in their parameters. -/
def Normalised : (kind : GateKind) → Vector ℝ kind.parameterCount → Prop
  | .singleQubitGate, arguments =>
    arguments.get (0 : Fin 5) ^ 2 + arguments.get (1 : Fin 5) ^ 2 + arguments.get (2 : Fin 5) ^ 2 +
      arguments.get (3 : Fin 5) ^ 2 = 1
  | _, _ => True

theorem cos_sin_unit (angle : ℝ) :
    Scalar.cos angle * Scalar.cos angle + Scalar.sin angle * Scalar.sin angle = 1 :=
  normSq_phase angle

theorem cos_neg_sin_unit (angle : ℝ) :
    Scalar.cos angle * Scalar.cos angle + -Scalar.sin angle * -Scalar.sin angle = 1 := by
  rw [neg_mul_neg]
  exact normSq_phase angle

theorem paired_toGate (kind : GateKind) (arguments : Vector ℝ kind.parameterCount)
    (normalised : kind.Normalised arguments) : (kind.toGate arguments).Paired := by
  cases kind with
  | identity => exact .single rfl rfl (.diagonal normSq_one normSq_one)
  | pauliX => exact .single rfl rfl (.antidiagonal normSq_one normSq_one)
  | pauliY =>
    exact .single rfl rfl
      (.antidiagonal ((normSq_neg _).trans normSq_imaginaryUnit) normSq_imaginaryUnit)
  | pauliZ => exact .single rfl rfl (.diagonal normSq_one ((normSq_neg _).trans normSq_one))
  | hadamard => exact .single rfl rfl .hadamard
  | sGate => exact .single rfl rfl (.diagonal normSq_one normSq_imaginaryUnit)
  | tGate => exact .single rfl rfl (.diagonal normSq_one (normSq_phase _))
  | phaseShiftState1 => exact .single rfl rfl (.diagonal normSq_one (normSq_phase _))
  | phaseShiftState0 => exact .single rfl rfl (.diagonal (normSq_phase _) normSq_one)
  | rotateZ => exact .single rfl rfl (.diagonal (normSq_phase _) (normSq_phase _))
  | rotateX => exact .single rfl rfl (.rotation (cos_neg_sin_unit _))
  | sqrtPauliX => exact .single rfl rfl (.rotation (cos_neg_sin_unit _))
  | invSqrtPauliX => exact .single rfl rfl (.rotation (cos_neg_sin_unit _))
  | rotateY => exact .single rfl rfl (.rotationY (cos_sin_unit _))
  | rotateXY => exact .single rfl rfl (.rotationXY (cos_neg_sin_unit _) _)
  | singleQubitGate =>
    exact .single rfl rfl ((UnitaryPair.amplitudes normalised).smul (normSq_phase _))
  | cnot =>
    exact .controlled rfl rfl (.antidiagonal normSq_one normSq_one)
      (by rw [add_zero, normSq_one])
  | controlledPauliY =>
    exact .controlled rfl (Gate.operator_controlled rfl (Operator.controlled_ofRows _ _ _ _))
      (.antidiagonal ((normSq_neg _).trans normSq_imaginaryUnit) normSq_imaginaryUnit)
      (by rw [add_zero, normSq_imaginaryUnit])
  | controlledPauliZ =>
    exact .controlled rfl rfl (.diagonal normSq_one ((normSq_neg _).trans normSq_one))
      (by rw [zero_add, normSq_neg, normSq_one])
  | controlledPhaseShift =>
    exact .controlled rfl (Gate.operator_controlled rfl (Operator.controlled_ofRows _ _ _ _))
      (.diagonal normSq_one (normSq_phase _)) (by rw [zero_add, normSq_phase])
  | swap =>
    exact .crossed rfl rfl (.diagonal normSq_one normSq_one) (.antidiagonal normSq_one normSq_one)
  | iSwap =>
    exact .crossed rfl rfl (.diagonal normSq_one normSq_one)
      (.antidiagonal normSq_imaginaryUnit normSq_imaginaryUnit)
  | variableMSXX =>
    exact .crossed rfl rfl (.rotation (cos_neg_sin_unit _)) (.rotation (cos_neg_sin_unit _))
  | molmerSorensenXX =>
    exact .crossed rfl rfl (.rotation (cos_neg_sin_unit _)) (.rotation (cos_neg_sin_unit _))
  | xy =>
    exact .crossed rfl rfl (.diagonal normSq_one normSq_one) (.rotation (cos_sin_unit _))
  | pmInteraction =>
    exact .crossed rfl rfl (.diagonal normSq_one normSq_one) (.rotation (cos_neg_sin_unit _))
  | toffoli => exact .ccnot rfl

theorem keepsNorm_toGate (kind : GateKind) (arguments : Vector ℝ kind.parameterCount)
    (normalised : kind.Normalised arguments) : (kind.toGate arguments).KeepsNorm :=
  (kind.paired_toGate arguments normalised).keepsNorm

end GateKind
end CircuitRunner
