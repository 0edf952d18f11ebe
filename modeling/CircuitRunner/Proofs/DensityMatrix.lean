import Mathlib
import CircuitRunner.Proofs.UnitNorm

/-! Density matrices of a register. A reset projects on the two values of its qubit and turns the
second one over; it keeps positivity and the trace, and collapsed states are its parts. -/
namespace CircuitRunner

open scoped ComplexOrder

abbrev DensityMatrix (n : Nat) : Type := Matrix (Fin (Basis.size n)) (Fin (Basis.size n)) ℂ

namespace DensityMatrix
variable {n : Nat}

noncomputable def projector (n qubit : Nat) (value : Bool) : DensityMatrix n :=
  Matrix.diagonal fun index => if (index : Nat).testBit qubit = value then 1 else 0

noncomputable def bitFlip (n qubit : Nat) : DensityMatrix n :=
  fun row column => if (row : Nat) = Basis.flip qubit column then 1 else 0

noncomputable def resetQubit (qubit : Nat) (density : DensityMatrix n) : DensityMatrix n :=
  projector n qubit false * density * projector n qubit false +
    bitFlip n qubit * projector n qubit true * density * projector n qubit true * bitFlip n qubit

noncomputable def outcomeMatrix (n qubit : Nat) : Bool → DensityMatrix n
  | false => projector n qubit false
  | true => bitFlip n qubit * projector n qubit true

theorem conjTranspose_projector (n qubit : Nat) (value : Bool) :
    (projector n qubit value).conjTranspose = projector n qubit value := by
  rw [projector, Matrix.diagonal_conjTranspose]
  congr 1
  funext index
  rw [Pi.star_apply]
  split
  · exact star_one ℂ
  · exact star_zero ℂ

theorem projector_mul_self (n qubit : Nat) (value : Bool) :
    projector n qubit value * projector n qubit value = projector n qubit value := by
  rw [projector, Matrix.diagonal_mul_diagonal]
  congr 1
  funext index
  split
  · exact one_mul 1
  · exact zero_mul 0

theorem projector_add (n qubit : Nat) : projector n qubit false + projector n qubit true = 1 := by
  rw [projector, projector, Matrix.diagonal_add, ← Matrix.diagonal_one]
  congr 1
  funext index
  cases (index : Nat).testBit qubit <;> simp

theorem conjTranspose_bitFlip (n qubit : Nat) : (bitFlip n qubit).conjTranspose = bitFlip n qubit := by
  ext row column
  rw [Matrix.conjTranspose_apply, bitFlip, bitFlip]
  by_cases flipped : (row : Nat) = Basis.flip qubit column
  · have back : (column : Nat) = Basis.flip qubit row := by rw [flipped, Basis.flip_flip]
    rw [if_pos flipped, if_pos back, star_one]
  · have apart : ¬(column : Nat) = Basis.flip qubit row := by
      intro back
      exact flipped (by rw [back, Basis.flip_flip])
    rw [if_neg flipped, if_neg apart, star_zero]

theorem bitFlip_mulVec {qubit : Nat} (inside : qubit < n) (vector : Fin (Basis.size n) → ℂ)
    (index : Fin (Basis.size n)) :
    (bitFlip n qubit).mulVec vector index =
      vector ⟨Basis.flip qubit index, Basis.flip_lt inside index.isLt⟩ := by
  rw [Matrix.mulVec, dotProduct, Finset.sum_eq_single_of_mem
    (⟨Basis.flip qubit index, Basis.flip_lt inside index.isLt⟩ : Fin (Basis.size n)) (Finset.mem_univ _)]
  · rw [bitFlip, if_pos (Basis.flip_flip qubit index).symm, one_mul]
  · intro other _ different
    rw [bitFlip, if_neg, zero_mul]
    intro flipped
    have back : (other : Nat) = Basis.flip qubit index := by rw [flipped, Basis.flip_flip]
    exact different (Fin.ext back)

theorem bitFlip_mul_self {qubit : Nat} (inside : qubit < n) : bitFlip n qubit * bitFlip n qubit = 1 := by
  apply Matrix.ext_of_mulVec_single
  intro column
  rw [← Matrix.mulVec_mulVec, Matrix.one_mulVec]
  funext index
  rw [bitFlip_mulVec inside, bitFlip_mulVec inside]
  congr 1
  exact Fin.ext (Basis.flip_flip qubit index)

theorem outcomeMatrix_mul {qubit : Nat} (inside : qubit < n) (outcome : Bool) :
    (outcomeMatrix n qubit outcome).conjTranspose * outcomeMatrix n qubit outcome =
      projector n qubit outcome := by
  cases outcome with
  | false => rw [outcomeMatrix, conjTranspose_projector, projector_mul_self]
  | true =>
    rw [outcomeMatrix, Matrix.conjTranspose_mul, conjTranspose_projector, conjTranspose_bitFlip]
    calc projector n qubit true * bitFlip n qubit * (bitFlip n qubit * projector n qubit true)
        = projector n qubit true * (bitFlip n qubit * bitFlip n qubit) * projector n qubit true := by
          simp only [Matrix.mul_assoc]
      _ = projector n qubit true := by
          rw [bitFlip_mul_self inside, Matrix.mul_one, projector_mul_self]

theorem trace_conjugate {matrix : DensityMatrix n}
    (unitary : matrix ∈ Matrix.unitaryGroup (Fin (Basis.size n)) ℂ) (density : DensityMatrix n) :
    (matrix * density * matrix.conjTranspose).trace = density.trace := by
  rw [Matrix.mem_unitaryGroup_iff', Matrix.star_eq_conjTranspose] at unitary
  rw [Matrix.trace_mul_cycle, unitary, Matrix.one_mul]

noncomputable def resetPart (qubit : Nat) (outcome : Bool) (density : DensityMatrix n) : DensityMatrix n :=
  outcomeMatrix n qubit outcome * density * (outcomeMatrix n qubit outcome).conjTranspose

theorem resetQubit_eq (qubit : Nat) (density : DensityMatrix n) :
    resetQubit qubit density = resetPart qubit false density + resetPart qubit true density := by
  simp only [resetQubit, resetPart, outcomeMatrix, Matrix.conjTranspose_mul, conjTranspose_projector,
    conjTranspose_bitFlip, Matrix.mul_assoc]

theorem resetPart_sub (qubit : Nat) (outcome : Bool) (first second : DensityMatrix n) :
    resetPart qubit outcome (first - second) =
      resetPart qubit outcome first - resetPart qubit outcome second := by
  rw [resetPart, resetPart, resetPart, Matrix.mul_sub, Matrix.sub_mul]

theorem resetPart_add (qubit : Nat) (outcome : Bool) (first second : DensityMatrix n) :
    resetPart qubit outcome (first + second) =
      resetPart qubit outcome first + resetPart qubit outcome second := by
  rw [resetPart, resetPart, resetPart, Matrix.mul_add, Matrix.add_mul]

theorem resetPart_smul (qubit : Nat) (outcome : Bool) (factor : ℂ) (density : DensityMatrix n) :
    resetPart qubit outcome (factor • density) = factor • resetPart qubit outcome density := by
  rw [resetPart, resetPart, Matrix.mul_smul, Matrix.smul_mul]

theorem posSemidef_resetPart {density : DensityMatrix n} (positive : density.PosSemidef) (qubit : Nat)
    (outcome : Bool) : (resetPart qubit outcome density).PosSemidef :=
  positive.mul_mul_conjTranspose_same _

theorem trace_resetPart {qubit : Nat} (inside : qubit < n) (outcome : Bool) (density : DensityMatrix n) :
    (resetPart qubit outcome density).trace = (projector n qubit outcome * density).trace := by
  rw [resetPart, Matrix.trace_mul_cycle, outcomeMatrix_mul inside]

theorem posSemidef_resetQubit {density : DensityMatrix n} (positive : density.PosSemidef) (qubit : Nat) :
    (resetQubit qubit density).PosSemidef := by
  rw [resetQubit_eq]
  exact (posSemidef_resetPart positive qubit false).add (posSemidef_resetPart positive qubit true)

theorem trace_resetQubit {qubit : Nat} (inside : qubit < n) (density : DensityMatrix n) :
    (resetQubit qubit density).trace = density.trace := by
  rw [resetQubit_eq, Matrix.trace_add, trace_resetPart inside, trace_resetPart inside, ← Matrix.trace_add,
    ← Matrix.add_mul, projector_add, Matrix.one_mul]

theorem resetQubit_sub (qubit : Nat) (first second : DensityMatrix n) :
    resetQubit qubit (first - second) = resetQubit qubit first - resetQubit qubit second := by
  rw [resetQubit_eq, resetQubit_eq, resetQubit_eq, resetPart_sub, resetPart_sub]
  abel

theorem resetQubit_add (qubit : Nat) (first second : DensityMatrix n) :
    resetQubit qubit (first + second) = resetQubit qubit first + resetQubit qubit second := by
  rw [resetQubit_eq, resetQubit_eq, resetQubit_eq, resetPart_add, resetPart_add]
  abel

end DensityMatrix

namespace State
open DensityMatrix
variable {n : Nat}

noncomputable def density (state : State (ComplexNumber ℝ) n) : DensityMatrix n :=
  Matrix.vecMulVec state.vector (star state.vector)

theorem density_of_mulVec {first second : State (ComplexNumber ℝ) n} {matrix : DensityMatrix n}
    (moved : second.vector = matrix.mulVec first.vector) :
    second.density = matrix * first.density * matrix.conjTranspose := by
  rw [density, moved, Matrix.star_mulVec, density, Matrix.mul_vecMulVec, Matrix.vecMulVec_mul]

theorem posSemidef_density (state : State (ComplexNumber ℝ) n) : state.density.PosSemidef :=
  Matrix.posSemidef_vecMulVec_self_star state.vector

theorem trace_density (state : State (ComplexNumber ℝ) n) : state.density.trace = state.squaredNorm := by
  rw [density, Matrix.trace_vecMulVec, dotProduct_comm, squaredNorm_eq]

theorem density_diagonal (state : State (ComplexNumber ℝ) n) (index : Fin (Basis.size n)) :
    state.density index index = ((state.amplitude index).normSq : ℝ) := by
  rw [density, Matrix.vecMulVec_apply, Pi.star_apply, mul_comm, ComplexNumber.normSq_eq]
  rfl

theorem trace_resetPart_density (state : State (ComplexNumber ℝ) n) {qubit : Nat} (inside : qubit < n)
    (outcome : Bool) : (resetPart qubit outcome state.density).trace = state.weight qubit outcome := by
  rw [trace_resetPart inside, weight_eq, Finset.sum_range, Complex.ofReal_sum, Matrix.trace]
  apply Finset.sum_congr rfl
  intro index _
  rw [Matrix.diag_apply, projector, Matrix.diagonal_mul, density_diagonal]
  split
  · rw [one_mul]
  · rw [zero_mul, Complex.ofReal_zero]

theorem vector_pauliX (state : State (ComplexNumber ℝ) n) {qubit : Nat} (inside : qubit < n) :
    (state.pauliX qubit).vector = (bitFlip n qubit).mulVec state.vector := by
  funext index
  rw [bitFlip_mulVec inside, vector, pauliX, permute, amplitude_tabulate _ index.isLt]
  rfl

theorem vector_projected (state : State (ComplexNumber ℝ) n) (qubit : Nat) (outcome : Bool) :
    (state.projected qubit outcome).vector =
      ((Real.sqrt (state.weight qubit outcome))⁻¹ : ℂ) • (projector n qubit outcome).mulVec state.vector := by
  funext index
  rw [vector, amplitude_projected _ _ _ index.isLt, ComplexNumber.toComplex_divide, Pi.smul_apply, projector,
    Matrix.mulVec_diagonal, smul_eq_mul]
  split
  · rw [one_mul]
    rfl
  · rw [zero_mul, map_zero]

/-- A collapsed state, weighted with the probability of its outcome, is the part of the reset state
that belongs to the outcome. -/
theorem density_of_collapse? (state : State (ComplexNumber ℝ) n) {qubit : Nat} (inside : qubit < n)
    {outcome : Bool} {next : State (ComplexNumber ℝ) n} (collapsed : state.collapse? qubit outcome = some next) :
    ((state.weight qubit outcome : ℝ) : ℂ) • next.density = resetPart qubit outcome state.density := by
  obtain ⟨positive, rfl⟩ := state.eq_of_collapse? collapsed
  have moved : (if outcome then (state.projected qubit outcome).pauliX qubit
      else state.projected qubit outcome).vector =
        ((((Real.sqrt (state.weight qubit outcome))⁻¹ : ℝ) : ℂ) •
          outcomeMatrix n qubit outcome).mulVec state.vector := by
    rw [Complex.ofReal_inv, Matrix.smul_mulVec]
    cases outcome with
    | false => rw [if_neg Bool.false_ne_true, vector_projected, outcomeMatrix]
    | true =>
      rw [if_pos rfl, vector_pauliX _ inside, vector_projected, outcomeMatrix, Matrix.mulVec_smul,
        Matrix.mulVec_mulVec]
  -- The two divisions by the norm of the part cancel its weight.
  have cancels : (state.weight qubit outcome : ℝ) *
      ((Real.sqrt (state.weight qubit outcome))⁻¹ * (Real.sqrt (state.weight qubit outcome))⁻¹) = 1 := by
    rw [← mul_inv, Real.mul_self_sqrt positive.le, mul_inv_cancel₀ positive.ne']
  rw [density_of_mulVec moved, Matrix.conjTranspose_smul, resetPart]
  simp only [Matrix.smul_mul, Matrix.mul_smul, smul_smul, Complex.star_def, Complex.conj_ofReal]
  rw [← Complex.ofReal_mul, ← Complex.ofReal_mul, cancels, Complex.ofReal_one, one_smul]

end State
end CircuitRunner
