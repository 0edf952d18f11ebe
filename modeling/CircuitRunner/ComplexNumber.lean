import CircuitRunner.Scalar

/-! Complex numbers in Cartesian form over a scalar type. -/
namespace CircuitRunner

@[ext]
structure ComplexNumber (R : Type) where
  re : R
  im : R

namespace ComplexNumber
variable {R : Type} [Scalar R]

instance : Zero (ComplexNumber R) := ⟨⟨0, 0⟩⟩
instance : One (ComplexNumber R) := ⟨⟨1, 0⟩⟩
instance : Add (ComplexNumber R) := ⟨fun z w => ⟨z.re + w.re, z.im + w.im⟩⟩
instance : Sub (ComplexNumber R) := ⟨fun z w => ⟨z.re - w.re, z.im - w.im⟩⟩
instance : Neg (ComplexNumber R) := ⟨fun z => ⟨-z.re, -z.im⟩⟩
instance : Mul (ComplexNumber R) :=
  ⟨fun z w => ⟨z.re * w.re - z.im * w.im, z.re * w.im + z.im * w.re⟩⟩
instance : BEq (ComplexNumber R) := ⟨fun z w => z.re == w.re && z.im == w.im⟩

@[simp] theorem zero_re : (0 : ComplexNumber R).re = 0 := rfl
@[simp] theorem zero_im : (0 : ComplexNumber R).im = 0 := rfl
@[simp] theorem one_re : (1 : ComplexNumber R).re = 1 := rfl
@[simp] theorem one_im : (1 : ComplexNumber R).im = 0 := rfl
@[simp] theorem add_re (z w : ComplexNumber R) : (z + w).re = z.re + w.re := rfl
@[simp] theorem add_im (z w : ComplexNumber R) : (z + w).im = z.im + w.im := rfl
@[simp] theorem sub_re (z w : ComplexNumber R) : (z - w).re = z.re - w.re := rfl
@[simp] theorem sub_im (z w : ComplexNumber R) : (z - w).im = z.im - w.im := rfl
@[simp] theorem neg_re (z : ComplexNumber R) : (-z).re = -z.re := rfl
@[simp] theorem neg_im (z : ComplexNumber R) : (-z).im = -z.im := rfl
@[simp] theorem mul_re (z w : ComplexNumber R) : (z * w).re = z.re * w.re - z.im * w.im := rfl
@[simp] theorem mul_im (z w : ComplexNumber R) : (z * w).im = z.re * w.im + z.im * w.re := rfl

def imaginaryUnit : ComplexNumber R := ⟨0, 1⟩

def ofReal (x : R) : ComplexNumber R := ⟨x, 0⟩

def ofImaginary (y : R) : ComplexNumber R := ⟨0, y⟩

def phase (angle : R) : ComplexNumber R := ⟨Scalar.cos angle, Scalar.sin angle⟩

def conjugate (z : ComplexNumber R) : ComplexNumber R := ⟨z.re, -z.im⟩

def scale (factor : R) (z : ComplexNumber R) : ComplexNumber R := ⟨factor * z.re, factor * z.im⟩

def divide (z : ComplexNumber R) (divisor : R) : ComplexNumber R := ⟨z.re / divisor, z.im / divisor⟩

def normSq (z : ComplexNumber R) : R := z.re * z.re + z.im * z.im

def norm (z : ComplexNumber R) : R := Scalar.hypot z.re z.im

end ComplexNumber
end CircuitRunner
