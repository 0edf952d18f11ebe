import Mathlib
import CircuitRunner.Proofs.Kernel

/-! States as complex vectors. A matrix on some of the qubits, taken with the identity on the others,
is a matrix on the whole register, and applying a gate is multiplying with it. -/
namespace CircuitRunner

namespace ComplexNumber

noncomputable def toComplex : ComplexNumber ℝ →+* ℂ where
  toFun z := ⟨z.re, z.im⟩
  map_one' := rfl
  map_mul' _ _ := rfl
  map_zero' := rfl
  map_add' _ _ := rfl

theorem toComplex_conjugate (z : ComplexNumber ℝ) : toComplex z.conjugate = star (toComplex z) := rfl

theorem toComplex_divide (z : ComplexNumber ℝ) (divisor : ℝ) :
    toComplex (z.divide divisor) = (divisor : ℂ)⁻¹ * toComplex z := by
  rw [← Complex.ofReal_inv]
  apply Complex.ext
  · rw [Complex.re_ofReal_mul]
    exact div_eq_inv_mul z.re divisor
  · rw [Complex.im_ofReal_mul]
    exact div_eq_inv_mul z.im divisor

theorem normSq_eq (z : ComplexNumber ℝ) : (z.normSq : ℂ) = star (toComplex z) * toComplex z :=
  Complex.normSq_eq_conj_mul_self (z := toComplex z)

end ComplexNumber

namespace Basis
variable {n : Nat} {qubits : List Nat}

def digits (qubits : List Nat) (index : Fin (size n)) : Fin (size qubits.length) :=
  ⟨gather qubits index, gather_lt qubits index⟩

def replace (inside : ∀ qubit ∈ qubits, qubit < n) (index : Fin (size n)) (number : Fin (size qubits.length)) :
    Fin (size n) :=
  ⟨scatter qubits number index, scatter_lt inside index.isLt number⟩

theorem digits_replace (distinct : qubits.Nodup) (inside : ∀ qubit ∈ qubits, qubit < n)
    (index : Fin (size n)) (number : Fin (size qubits.length)) :
    digits qubits (replace inside index number) = number :=
  Fin.ext (gather_scatter distinct number.isLt index)

/-- A sum over the basis states that differ in listed bits only is a sum over the values of those bits. -/
theorem sum_fiber (distinct : qubits.Nodup) (inside : ∀ qubit ∈ qubits, qubit < n) (index : Fin (size n))
    (term : Fin (size n) → ℂ) :
    (∑ other : Fin (size n), if clearAll qubits index = clearAll qubits other then term other else 0) =
      ∑ number, term (replace inside index number) := by
  rw [← Finset.sum_filter]
  refine Finset.sum_nbij' (digits qubits) (replace inside index) ?_ ?_ ?_ ?_ ?_
  · intro other _
    exact Finset.mem_univ _
  · intro number _
    exact Finset.mem_filter.2 ⟨Finset.mem_univ _, (clearAll_scatter qubits number index).symm⟩
  · intro other member
    exact Fin.ext (scatter_gather_of_clearAll (Finset.mem_filter.1 member).2)
  · intro number _
    exact digits_replace distinct inside index number
  · intro other member
    congr 1
    exact (Fin.ext (scatter_gather_of_clearAll (Finset.mem_filter.1 member).2)).symm

/-- A matrix on the listed qubits, taken with the identity on all others. -/
noncomputable def placed (n : Nat) (qubits : List Nat)
    (matrix : Matrix (Fin (size qubits.length)) (Fin (size qubits.length)) ℂ) :
    Matrix (Fin (size n)) (Fin (size n)) ℂ :=
  fun row column =>
    if clearAll qubits row = clearAll qubits column then matrix (digits qubits row) (digits qubits column)
    else 0

theorem placed_mul (distinct : qubits.Nodup) (inside : ∀ qubit ∈ qubits, qubit < n)
    (first second : Matrix (Fin (size qubits.length)) (Fin (size qubits.length)) ℂ) :
    placed n qubits first * placed n qubits second = placed n qubits (first * second) := by
  ext row column
  have products : (placed n qubits first * placed n qubits second) row column =
      ∑ middle : Fin (size n), if clearAll qubits row = clearAll qubits middle then
        first (digits qubits row) (digits qubits middle) * placed n qubits second middle column else 0 := by
    simp only [Matrix.mul_apply, placed, ite_mul, zero_mul]
  rw [products, sum_fiber distinct inside]
  have cleared (number : Fin (size qubits.length)) :
      clearAll qubits (replace inside row number) = clearAll qubits row := clearAll_scatter qubits number row
  simp only [placed, digits_replace distinct inside, cleared]
  by_cases same : clearAll qubits row = clearAll qubits column
  · simp only [if_pos same, Matrix.mul_apply]
  · simp only [if_neg same, mul_zero, Finset.sum_const_zero]

theorem placed_one (n : Nat) (qubits : List Nat) : placed n qubits 1 = 1 := by
  ext row column
  by_cases same : row = column
  · subst same
    rw [placed, if_pos rfl, Matrix.one_apply_eq, Matrix.one_apply_eq]
  · rw [Matrix.one_apply_ne same, placed]
    split
    · rename_i cleared
      refine Matrix.one_apply_ne fun gathered => same (Fin.ext ?_)
      -- Equal listed bits and equal others make equal indices.
      have bits : gather qubits row = gather qubits column := congrArg Fin.val gathered
      calc (row : Nat) = scatter qubits (gather qubits row) row := (scatter_gather qubits row).symm
        _ = scatter qubits (gather qubits column) row := by rw [bits]
        _ = column := scatter_gather_of_clearAll cleared
    · rfl

theorem conjTranspose_placed (n : Nat) (qubits : List Nat)
    (matrix : Matrix (Fin (size qubits.length)) (Fin (size qubits.length)) ℂ) :
    (placed n qubits matrix).conjTranspose = placed n qubits matrix.conjTranspose := by
  ext row column
  by_cases same : clearAll qubits row = clearAll qubits column
  · simp [placed, same]
  · simp [placed, same, Ne.symm same]

theorem placed_unitary (distinct : qubits.Nodup) (inside : ∀ qubit ∈ qubits, qubit < n)
    {matrix : Matrix (Fin (size qubits.length)) (Fin (size qubits.length)) ℂ}
    (unitary : matrix ∈ Matrix.unitaryGroup (Fin (size qubits.length)) ℂ) :
    placed n qubits matrix ∈ Matrix.unitaryGroup (Fin (size n)) ℂ := by
  rw [Matrix.mem_unitaryGroup_iff'] at unitary ⊢
  rw [Matrix.star_eq_conjTranspose] at unitary ⊢
  rw [conjTranspose_placed, placed_mul distinct inside, unitary, placed_one]

end Basis

noncomputable def Operator.matrix (operator : Operator (ComplexNumber ℝ)) (count : Nat) :
    Matrix (Fin (Basis.size count)) (Fin (Basis.size count)) ℂ :=
  fun row column => (operator.entry row column).toComplex

namespace State
variable {n : Nat}

noncomputable def vector (state : State (ComplexNumber ℝ) n) : Fin (Basis.size n) → ℂ :=
  fun index => (state.amplitude index).toComplex

theorem vector_applyOperator (state : State (ComplexNumber ℝ) n) (operator : Operator (ComplexNumber ℝ))
    {qubits : List Nat} (distinct : qubits.Nodup) (inside : ∀ qubit ∈ qubits, qubit < n) :
    (state.applyOperator operator qubits).vector =
      (Basis.placed n qubits (operator.matrix qubits.length)).mulVec state.vector := by
  funext index
  have products : (Basis.placed n qubits (operator.matrix qubits.length)).mulVec state.vector index =
      ∑ other : Fin (Basis.size n), if Basis.clearAll qubits index = Basis.clearAll qubits other then
        operator.matrix qubits.length (Basis.digits qubits index) (Basis.digits qubits other) *
          state.vector other else 0 := by
    simp only [Matrix.mulVec, dotProduct, Basis.placed, ite_mul, zero_mul]
  rw [products, Basis.sum_fiber distinct inside, vector,
    amplitude_applyOperator state operator qubits index.isLt, map_sum, Finset.sum_range]
  apply Finset.sum_congr rfl
  intro number _
  rw [map_mul, Basis.digits_replace distinct inside]
  rfl

noncomputable def squaredNorm (state : State (ComplexNumber ℝ) n) : ℝ :=
  ∑ index ∈ Finset.range (Basis.size n), (state.amplitude index).normSq

theorem squaredNorm_eq (state : State (ComplexNumber ℝ) n) :
    (state.squaredNorm : ℂ) = star state.vector ⬝ᵥ state.vector := by
  rw [squaredNorm, Finset.sum_range, Complex.ofReal_sum]
  exact Finset.sum_congr rfl fun index _ => (state.amplitude index).normSq_eq

theorem squaredNorm_of_unitary {first second : State (ComplexNumber ℝ) n}
    {matrix : Matrix (Fin (Basis.size n)) (Fin (Basis.size n)) ℂ}
    (unitary : matrix ∈ Matrix.unitaryGroup (Fin (Basis.size n)) ℂ)
    (moved : second.vector = matrix.mulVec first.vector) : second.squaredNorm = first.squaredNorm := by
  rw [Matrix.mem_unitaryGroup_iff', Matrix.star_eq_conjTranspose] at unitary
  apply Complex.ofReal_injective
  rw [squaredNorm_eq, squaredNorm_eq, moved, Matrix.star_mulVec, ← Matrix.dotProduct_mulVec,
    Matrix.mulVec_mulVec, unitary, Matrix.one_mulVec]

end State
end CircuitRunner
