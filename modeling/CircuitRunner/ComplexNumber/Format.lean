import CircuitRunner.ComplexNumber
import CircuitRunner.Value

/-! Stored form of complex numbers: a list of the real and the imaginary part. -/
namespace CircuitRunner.ComplexNumber

variable {R : Type} [Literal R]

def encode (z : ComplexNumber R) : Value R := .list [.ofReal z.re, .ofReal z.im]

def decode : Value R → Option (ComplexNumber R)
  | .list [re, im] => do return ⟨← re.number?, ← im.number?⟩
  | _ => none

end CircuitRunner.ComplexNumber
