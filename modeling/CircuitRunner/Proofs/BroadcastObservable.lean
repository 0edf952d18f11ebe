import Mathlib
import CircuitRunner.Proofs.DiagonalObservable

/-! Observables given by a matrix over one qubit, which is repeated over the whole register. The observable is
the tensor power of the matrix, the first factor belonging to the most significant bit of an index. Only the
single matrix is tested for being Hermitian; the tolerance of that test is multiplied by the entries of the
other factors, so the tensor power of a matrix with large entries may fail the test. -/
namespace CircuitRunner
open ComplexNumber

namespace ComplexNumber

theorem norm_eq (z : ComplexNumber ℝ) : z.norm = ‖toComplex z‖ := by
  rw [Complex.norm_def]
  rfl

theorem norm_ofReal (x : ℝ) : (ofReal x).norm = |x| :=
  (norm_eq _).trans (Complex.norm_real x)

theorem ofReal_sub (x y : ℝ) : ofReal (x - y) = ofReal x - ofReal y := by
  ext <;> simp [ofReal]

theorem ofReal_pow (x : ℝ) (power : Nat) : ofReal (x ^ power) = ofReal x ^ power :=
  map_pow (⟨⟨ofReal, ofReal_one⟩, ofReal_mul⟩ : ℝ →* ComplexNumber ℝ) x power

theorem ofReal_zero : ofReal (0 : ℝ) = 0 := rfl

theorem conjugate_ofReal (x : ℝ) : (ofReal x).conjugate = ofReal x := by
  ext <;> simp [ofReal, conjugate]

theorem conjugate_mul (z w : ComplexNumber ℝ) : (z * w).conjugate = z.conjugate * w.conjugate := by
  ext
  · simp [conjugate]
  · simp [conjugate]
    ring

theorem conjugate_prod (items : Finset Nat) (factor : Nat → ComplexNumber ℝ) :
    (∏ index ∈ items, factor index).conjugate = ∏ index ∈ items, (factor index).conjugate :=
  map_prod (⟨⟨conjugate, conjugate_one⟩, conjugate_mul⟩ : ComplexNumber ℝ →* ComplexNumber ℝ) factor items

end ComplexNumber

/-- Products of factors that are near to each other are near, by as much as the factors are small. -/
theorem norm_prod_sub_prod_le {first second : Nat → ℂ} {bound deviation : ℝ}
    (firstSmall : ∀ index, ‖first index‖ ≤ bound) (secondSmall : ∀ index, ‖second index‖ ≤ bound)
    (near : ∀ index, ‖first index - second index‖ ≤ deviation) (count : Nat) :
    ‖∏ index ∈ Finset.range count, first index - ∏ index ∈ Finset.range count, second index‖ ≤
      count * bound ^ (count - 1) * deviation := by
  have positive : 0 ≤ bound := (norm_nonneg _).trans (firstSmall 0)
  have apart : 0 ≤ deviation := (norm_nonneg _).trans (near 0)
  induction count with
  | zero => simp
  | succ count ih =>
    rw [Finset.prod_range_succ, Finset.prod_range_succ]
    have product : ‖∏ index ∈ Finset.range count, second index‖ ≤ bound ^ count := by
      have factors :
          ∏ index ∈ Finset.range count, ‖second index‖ ≤ ∏ _index ∈ Finset.range count, bound :=
        Finset.prod_le_prod (fun index _ => norm_nonneg _) fun index _ => secondSmall index
      rwa [Finset.prod_const, Finset.card_range, ← norm_prod] at factors
    have raised : (count : ℝ) * bound ^ (count - 1) * bound = count * bound ^ count := by
      cases count with
      | zero => simp
      | succ count => rw [Nat.add_sub_cancel, pow_succ, mul_assoc]
    generalize ∏ index ∈ Finset.range count, first index = one at ih ⊢
    generalize ∏ index ∈ Finset.range count, second index = two at ih product ⊢
    -- The last factor is exchanged in the first product, then the others.
    calc ‖one * first count - two * second count‖
        = ‖(one - two) * first count + two * (first count - second count)‖ := by ring_nf
      _ ≤ ‖one - two‖ * ‖first count‖ + ‖two‖ * ‖first count - second count‖ :=
        (norm_add_le _ _).trans_eq (by rw [norm_mul, norm_mul])
      _ ≤ count * bound ^ (count - 1) * deviation * bound + bound ^ count * deviation := by
        gcongr
        · exact firstSmall count
        · exact near count
      _ = (count + 1 : ℕ) * bound ^ (count + 1 - 1) * deviation := by
        rw [mul_right_comm, raised, Nat.add_sub_cancel]
        push_cast
        ring

namespace Operator

noncomputable def asymmetry (operator : Operator (ComplexNumber ℝ)) (row column : Nat) : ℝ :=
  (operator.entry row column - (operator.entry column row).conjugate).norm

def SelfAdjoint (operator : Operator (ComplexNumber ℝ)) : Prop :=
  ∀ row < operator.rows, ∀ column < operator.columns,
    operator.entry row column = (operator.entry column row).conjugate

variable {operator : Operator (ComplexNumber ℝ)}

theorem selfAdjoint_tensorPower (rows : operator.rows = 2) (columns : operator.columns = 2)
    (adjoint : operator.SelfAdjoint) (power : Nat) : (operator.tensorPower power).SelfAdjoint := by
  obtain ⟨powerRows, powerColumns⟩ := tensorPower_shape rows columns power
  intro row inRows column inColumns
  rw [powerRows] at inRows
  rw [powerColumns] at inColumns
  rw [entry_tensorPower rows columns power inRows inColumns,
    entry_tensorPower rows columns power inColumns inRows, conjugate_prod]
  apply Finset.prod_congr rfl
  intro qubit _
  exact adjoint _ (rows ▸ Bool.toNat_lt _) _ (columns ▸ Bool.toNat_lt _)

theorem asymmetry_tensorPower_le (rows : operator.rows = 2) (columns : operator.columns = 2)
    {bound deviation : ℝ} (small : ∀ row < 2, ∀ column < 2, (operator.entry row column).norm ≤ bound)
    (near : ∀ row < 2, ∀ column < 2, operator.asymmetry row column ≤ deviation) (power : Nat) {row column : Nat}
    (inRows : row < Basis.size power) (inColumns : column < Basis.size power) :
    (operator.tensorPower power).asymmetry row column ≤ power * bound ^ (power - 1) * deviation := by
  rw [asymmetry, entry_tensorPower rows columns power inRows inColumns,
    entry_tensorPower rows columns power inColumns inRows, conjugate_prod, norm_eq, map_sub, map_prod, map_prod]
  apply norm_prod_sub_prod_le
  · intro qubit
    rw [← norm_eq]
    exact small _ (Bool.toNat_lt _) _ (Bool.toNat_lt _)
  · intro qubit
    rw [toComplex_conjugate, norm_star, ← norm_eq]
    exact small _ (Bool.toNat_lt _) _ (Bool.toNat_lt _)
  · intro qubit
    rw [← map_sub, ← norm_eq]
    exact near _ (Bool.toNat_lt _) _ (Bool.toNat_lt _)

noncomputable def lopsided : Operator (ComplexNumber ℝ) :=
  .ofRows [[ofReal 500, ofReal 5e-11], [0, ofReal 500]]

theorem entry_lopsided : lopsided.entry 0 0 = ofReal 500 ∧ lopsided.entry 0 1 = ofReal 5e-11 ∧
    lopsided.entry 1 0 = ofReal 0 ∧ lopsided.entry 1 1 = ofReal 500 := by
  simp [lopsided, entry_ofRows, ofReal_zero]

end Operator

namespace Observable
variable {operator : Operator (ComplexNumber ℝ)}

theorem isHermitian_iff : isHermitian operator = true ↔
    ∀ row < operator.rows, ∀ column < operator.columns, operator.asymmetry row column < 1e-10 := by
  simp only [isHermitian, List.all_eq_true, List.mem_range]
  simp only [Scalar.less, decide_eq_true_iff, Operator.asymmetry]

theorem isHermitian_lopsided : isHermitian .lopsided = true := by
  obtain ⟨first, above, below, second⟩ := Operator.entry_lopsided
  rw [isHermitian_iff]
  intro row inRows column inColumns
  change row < 2 at inRows
  change column < 2 at inColumns
  unfold Operator.asymmetry
  interval_cases row <;> interval_cases column
  · rw [first, conjugate_ofReal, ← ofReal_sub, norm_ofReal]
    norm_num
  · rw [above, below, conjugate_ofReal, ← ofReal_sub, norm_ofReal]
    norm_num
  · rw [above, below, conjugate_ofReal, ← ofReal_sub, norm_ofReal]
    norm_num
  · rw [second, conjugate_ofReal, ← ofReal_sub, norm_ofReal]
    norm_num

/-- Every further qubit multiplies the small entry by the large one beside it. -/
theorem asymmetry_of_lopsided {n : Nat} {observable : Observable ℝ}
    (made : ofOperator (n + 1) .lopsided = .ok observable) :
    observable.operator.asymmetry 0 1 = 500 ^ n * 5e-11 := by
  obtain ⟨first, above, below, _⟩ := Operator.entry_lopsided
  have inside : 1 < Basis.size (n + 1) := Nat.one_lt_two_pow (Nat.succ_ne_zero n)
  have entryAbove : observable.operator.entry 0 1 = ofReal (500 ^ n * 5e-11) := by
    rw [entry_of_single rfl made (Nat.zero_lt_of_lt inside) inside, Finset.prod_range_succ', ofReal_mul, ofReal_pow]
    simp [Nat.testBit_succ, first, above]
  have entryBelow : observable.operator.entry 1 0 = ofReal 0 := by
    rw [entry_of_single rfl made inside (Nat.zero_lt_of_lt inside), Finset.prod_range_succ']
    simp [Nat.testBit_succ, below, ofReal_zero]
  rw [Operator.asymmetry, entryAbove, entryBelow, conjugate_ofReal, ← ofReal_sub, norm_ofReal, sub_zero]
  exact abs_of_nonneg (by positivity)

theorem lopsided_not_hermitian {n : Nat} (several : 2 ≤ n) {observable : Observable ℝ}
    (made : ofOperator n .lopsided = .ok observable) : isHermitian observable.operator = false := by
  obtain ⟨others, rfl⟩ := Nat.exists_eq_add_of_le several
  obtain ⟨rows, columns⟩ := shape_of_ofOperator made
  have inside : 1 < Basis.size (2 + others) := Nat.one_lt_two_pow (by omega)
  have skewed : 1e-10 ≤ observable.operator.asymmetry 0 1 := by
    have scaled : (500 : ℝ) ≤ 500 ^ (1 + others) := le_self_pow₀ (by norm_num) (by omega)
    rw [show 2 + others = 1 + others + 1 by omega] at made
    rw [asymmetry_of_lopsided made]
    linarith
  rw [Bool.eq_false_iff, Ne, isHermitian_iff]
  intro symmetric
  exact absurd (symmetric 0 (rows ▸ Nat.zero_lt_of_lt inside) 1 (columns ▸ inside)) (not_lt.2 skewed)

/-- A matrix over one qubit that passes the test is accepted on any register that fits into a word. -/
theorem ofOperator_single {n : Nat} (small : n < 64) (rows : operator.rows = 2) (columns : operator.columns = 2)
    (hermitian : isHermitian operator = true) : ∃ observable, ofOperator n operator = .ok observable := by
  by_cases full : operator.rows = Nat.pow 2 n
  · exact ⟨_, ofOperator_ok.2 ⟨rows.trans columns.symm, hermitian, small, .inl ⟨full, rfl⟩⟩⟩
  · exact ⟨_, ofOperator_ok.2 ⟨rows.trans columns.symm, hermitian, small, .inr ⟨full, rows, rfl⟩⟩⟩

theorem rejected_of_not_ok {n : Nat} (never : ∀ observable, ofOperator n operator ≠ .ok observable) :
    ∃ error, ofOperator n operator = .error error := by
  cases made : ofOperator n operator with
  | error error => exact ⟨error, rfl⟩
  | ok observable => exact absurd made (never observable)

theorem isHermitian_of_few {n : Nat} (few : n < 2) {observable : Observable ℝ}
    (made : ofOperator n operator = .ok observable) : isHermitian observable.operator = true := by
  obtain ⟨square, hermitian, _, ⟨_, rfl⟩ | ⟨notFull, single, rfl⟩⟩ := ofOperator_ok.1 made
  · exact hermitian
  · -- One qubit takes the matrix itself, so there is none and the power has the only entry one.
    have none : n = 0 := by
      by_contra some
      obtain rfl : n = 1 := by omega
      exact notFull single
    subst none
    have columns : operator.columns = 2 := square ▸ single
    apply isHermitian_of_conjugate
    intro row inRows column inColumns
    rw [Operator.entry_tensorPower single columns 0 inRows inColumns,
      Operator.entry_tensorPower single columns 0 inColumns inRows, Finset.prod_range_zero, Finset.prod_range_zero,
      conjugate_one]

theorem always_hermitian_iff (n : Nat) :
    (∀ (operator : Operator (ComplexNumber ℝ)) observable, ofOperator n operator = .ok observable →
      isHermitian observable.operator = true) ↔ n < 2 ∨ 64 ≤ n := by
  constructor
  · intro always
    by_contra several
    obtain ⟨two, small⟩ := not_or.1 several
    obtain ⟨observable, made⟩ := ofOperator_single (not_le.1 small) rfl rfl isHermitian_lopsided
    have passes := always _ observable made
    rw [lopsided_not_hermitian (not_lt.1 two) made] at passes
    cases passes
  · rintro (few | large) operator observable made
    · exact isHermitian_of_few few made
    · obtain ⟨_, _, small, _⟩ := ofOperator_ok.1 made
      omega

/-- A matrix over the whole register is stored as it was tested. A matrix over one qubit is stored as a
tensor power. A matrix that is Hermitian without tolerance has such a power; one that is so up to the tolerance
only as far as its entries are small. All observables pass the test if and only if there is at most one qubit,
or so many that no matrix is accepted. -/
theorem stored_asymmetry (n : Nat) :
    (∀ (operator : Operator (ComplexNumber ℝ)) observable, ofOperator n operator = .ok observable →
      (operator.rows = Basis.size n → observable.operator = operator ∧ isHermitian observable.operator = true) ∧
      (operator.rows ≠ Basis.size n → ∀ bound deviation : ℝ,
        (∀ row < 2, ∀ column < 2, (operator.entry row column).norm ≤ bound) →
        (∀ row < 2, ∀ column < 2, operator.asymmetry row column ≤ deviation) →
        ∀ row < Basis.size n, ∀ column < Basis.size n,
          observable.operator.asymmetry row column ≤ n * bound ^ (n - 1) * deviation) ∧
      (operator.SelfAdjoint → observable.operator.SelfAdjoint)) ∧
    ((∀ (operator : Operator (ComplexNumber ℝ)) observable, ofOperator n operator = .ok observable →
      isHermitian observable.operator = true) ↔ n < 2 ∨ 64 ≤ n) := by
  refine ⟨fun operator observable made => ?_, always_hermitian_iff n⟩
  obtain ⟨square, hermitian, _, ⟨full, rfl⟩ | ⟨notFull, single, rfl⟩⟩ := ofOperator_ok.1 made
  · exact ⟨fun _ => ⟨rfl, hermitian⟩, fun other => absurd full other, id⟩
  · have columns : operator.columns = 2 := square ▸ single
    refine ⟨fun full => absurd full notFull, ?_, fun adjoint => ?_⟩
    · intro _ bound deviation small near row inRows column inColumns
      exact Operator.asymmetry_tensorPower_le single columns small near n inRows inColumns
    · exact Operator.selfAdjoint_tensorPower single columns adjoint n

/-- On two qubits the matrix is accepted and what is stored would not be. -/
theorem stored_lopsided : ∃ observable, ofOperator 2 .lopsided = .ok observable ∧
    isHermitian observable.operator = false ∧
    ofOperator 2 observable.operator = .error (.invalidObservable .notHermitian) := by
  obtain ⟨observable, made⟩ := ofOperator_single (n := 2) (by norm_num) rfl rfl isHermitian_lopsided
  have fails := lopsided_not_hermitian le_rfl made
  obtain ⟨rows, columns⟩ := shape_of_ofOperator made
  refine ⟨observable, made, fails, ?_⟩
  simp [ofOperator, rows, columns, fails]

/-- The qubits stand in the order of the factors, the first one at the most significant bit. -/
theorem entry_of_single_reflected {n : Nat} (single : operator.rows = 2) {observable : Observable ℝ}
    (made : ofOperator n operator = .ok observable) {row column : Nat} (inRows : row < Basis.size n)
    (inColumns : column < Basis.size n) :
    observable.operator.entry row column = ∏ qubit ∈ Finset.range n,
      operator.entry (row.testBit (n - 1 - qubit)).toNat (column.testBit (n - 1 - qubit)).toNat := by
  rw [entry_of_single single made inRows inColumns]
  exact (Finset.prod_range_reflect
    (fun qubit => operator.entry (row.testBit qubit).toNat (column.testBit qubit).toNat) n).symm

/-- A matrix over one qubit is stored as its tensor power over the register, which on one qubit is the matrix
itself and for Pauli Z has the signs of the indices on its diagonal. Nothing but such a matrix and a matrix
over the whole register is accepted, and what is stored has the size of the register. -/
theorem ofOperator_tensor (n : Nat) :
    (∀ operator : Operator (ComplexNumber ℝ), operator.rows = 2 → operator.columns = 2 →
      (operator.SelfAdjoint → isHermitian operator = true) ∧
      (isHermitian operator = true → n < 64 → ∃ stored, ofOperator n operator = .ok ⟨n, stored⟩ ∧
        (∀ row < Basis.size n, ∀ column < Basis.size n,
          stored.entry row column = ∏ qubit ∈ Finset.range n,
            operator.entry (row.testBit (n - 1 - qubit)).toNat (column.testBit (n - 1 - qubit)).toNat) ∧
        (n = 1 → stored = operator))) ∧
    (n < 64 → ∃ stored : Operator (ComplexNumber ℝ), pauliZ n = .ok ⟨n, stored⟩ ∧
      ∀ row < Basis.size n, ∀ column < Basis.size n, stored.entry row column =
        if row = column then ofReal ((-1) ^ (Basis.bits n row).count true) else 0) ∧
    (∀ (operator : Operator (ComplexNumber ℝ)) observable, ofOperator n operator = .ok observable →
      observable.numberOfQubits = n ∧ observable.operator.rows = Basis.size n ∧
        observable.operator.columns = Basis.size n) ∧
    (∀ operator : Operator (ComplexNumber ℝ), operator.rows = operator.columns → operator.rows ≠ 2 →
      operator.rows ≠ Basis.size n → ∃ error, ofOperator n operator = .error error) ∧
    (64 ≤ n → ∀ operator : Operator (ComplexNumber ℝ), ∃ error, ofOperator n operator = .error error) := by
  refine ⟨fun operator rows columns => ⟨isHermitian_of_conjugate, fun hermitian small => ?_⟩, fun small => ?_,
    fun operator observable made => ⟨numberOfQubits_ofOperator made, shape_of_ofOperator made⟩,
    fun operator square notSingle notFull => ?_, fun large operator => ?_⟩
  · obtain ⟨⟨size, stored⟩, made⟩ := ofOperator_single small rows columns hermitian
    obtain rfl : size = n := numberOfQubits_ofOperator made
    refine ⟨stored, made, fun row inRows column inColumns => ?_, fun one => ?_⟩
    · exact entry_of_single_reflected rows made inRows inColumns
    · obtain ⟨_, _, _, ⟨_, same⟩ | ⟨notFull, _, _⟩⟩ := ofOperator_ok.1 made
      · exact congrArg Observable.operator same
      · subst one
        exact absurd rows notFull
  · obtain ⟨⟨size, stored⟩, made⟩ := ofOperator_single small rfl rfl isHermitian_pauliZ
    obtain rfl : size = n := numberOfQubits_ofOperator made
    exact ⟨stored, made, fun row inRows column inColumns => entry_of_pauliZ made inRows inColumns⟩
  · apply rejected_of_not_ok
    intro observable made
    obtain ⟨_, _, _, ⟨full, _⟩ | ⟨_, single, _⟩⟩ := ofOperator_ok.1 made
    · exact notFull full
    · exact notSingle single
  · apply rejected_of_not_ok
    intro observable made
    obtain ⟨_, _, small, _⟩ := ofOperator_ok.1 made
    omega

end Observable
end CircuitRunner
