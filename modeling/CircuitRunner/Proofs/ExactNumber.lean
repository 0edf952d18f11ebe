import Mathlib
import CircuitRunner.ComplexNumber

/-! Exact arithmetic: the real numbers as scalars, and the commutative ring of complex numbers
over them. -/
namespace CircuitRunner

noncomputable instance : Scalar ℝ where
  beq x y := @decide (x = y) (Classical.propDecidable _)
  sqrt := Real.sqrt
  hypot x y := Real.sqrt (x * x + y * y)
  sin := Real.sin
  cos := Real.cos
  pi := Real.pi
  sqrtHalf := 1 / Real.sqrt 2
  less x y := @decide (x < y) (Classical.propDecidable _)
  atMost x y := @decide (x ≤ y) (Classical.propDecidable _)

theorem two_literal : (2.0 : ℝ) = 2 := by norm_num

theorem sqrtHalf_eq : (Scalar.sqrtHalf : ℝ) = 1 / Scalar.sqrt 2.0 := by
  rw [two_literal]
  rfl

theorem sqrtHalf_mul_self : (Scalar.sqrtHalf : ℝ) * Scalar.sqrtHalf = 1 / 2 := by
  change 1 / Real.sqrt 2 * (1 / Real.sqrt 2) = 1 / 2
  rw [div_mul_div_comm, one_mul, Real.mul_self_sqrt (by norm_num)]

namespace ComplexNumber

noncomputable instance : CommRing (ComplexNumber ℝ) where
  add_assoc z w v := by ext <;> simp only [add_re, add_im] <;> ring
  zero_add z := by ext <;> simp
  add_zero z := by ext <;> simp
  add_comm z w := by ext <;> simp only [add_re, add_im] <;> ring
  neg_add_cancel z := by ext <;> simp
  sub_eq_add_neg z w := by ext <;> simp only [sub_re, sub_im, add_re, add_im, neg_re, neg_im] <;> ring
  mul_assoc z w v := by ext <;> simp only [mul_re, mul_im] <;> ring
  mul_comm z w := by ext <;> simp only [mul_re, mul_im] <;> ring
  one_mul z := by ext <;> simp
  mul_one z := by ext <;> simp
  zero_mul z := by ext <;> simp
  mul_zero z := by ext <;> simp
  left_distrib z w v := by ext <;> simp only [mul_re, mul_im, add_re, add_im] <;> ring
  right_distrib z w v := by ext <;> simp only [mul_re, mul_im, add_re, add_im] <;> ring
  nsmul := nsmulRec
  zsmul := zsmulRec

theorem phase_pi : phase (Scalar.pi : ℝ) = -1 := by
  ext
  · exact Real.cos_pi
  · exact Real.sin_pi.trans neg_zero.symm

theorem phase_quarter : phase (Scalar.pi / 2.0 : ℝ) = imaginaryUnit := by
  have half : (Scalar.pi / 2.0 : ℝ) = Real.pi / 2 := by
    rw [two_literal]
    rfl
  rw [half]
  ext
  · exact Real.cos_pi_div_two
  · exact Real.sin_pi_div_two

theorem normSq_nonneg (z : ComplexNumber ℝ) : 0 ≤ z.normSq :=
  add_nonneg (mul_self_nonneg _) (mul_self_nonneg _)

theorem scale_eq (factor : ℝ) (z : ComplexNumber ℝ) : scale factor z = ofReal factor * z := by
  ext <;> simp [scale, ofReal]

end ComplexNumber

theorem accumulate_eq_sum {K : Type} [AddCommMonoid K] (terms : List K) : accumulate terms = terms.sum := by
  rw [accumulate, List.sum_eq_foldl]

theorem accumulate_range {K : Type} [AddCommMonoid K] (count : Nat) (term : Nat → K) :
    accumulate ((List.range count).map term) = ∑ index ∈ Finset.range count, term index := by
  rw [accumulate_eq_sum]
  rfl

theorem accumulate_filter_range {K : Type} [AddCommMonoid K] (count : Nat) (keep : Nat → Bool)
    (term : Nat → K) :
    accumulate (((List.range count).filter keep).map term) =
      ∑ index ∈ Finset.range count, if keep index then term index else 0 := by
  rw [accumulate_eq_sum]
  induction count with
  | zero => rfl
  | succ count ih =>
    rw [List.range_succ, List.filter_append, List.map_append, List.sum_append, ih, Finset.sum_range_succ]
    cases kept : keep count <;> simp [kept]

end CircuitRunner
