/-! Real arithmetic as the simulator uses it. The number type is a parameter, so
one definition runs on doubles and is stated over exact numbers. -/
namespace CircuitRunner

/-- The operations needed of a real number. No law is asked of them: doubles
satisfy few, and statements about exact numbers bring their own. -/
class Scalar (R : Type) extends Zero R, One R, Add R, Sub R, Mul R, Div R, Neg R, BEq R,
    OfScientific R where
  sqrt : R → R
  /-- The length of the vector with the given coordinates. -/
  hypot : R → R → R
  sin : R → R
  cos : R → R
  pi : R
  /-- The constant `1/√2` of the Hadamard matrix. -/
  sqrtHalf : R
  /-- Strict order; false when either side is not a number. -/
  less : R → R → Bool
  /-- Order with equality; false when either side is not a number. -/
  atMost : R → R → Bool

class Literal (R : Type) where
  /-- The text of a number in messages and symbolic expressions. -/
  text : R → String
  /-- The number a literal denotes, if the text is one. -/
  read : String → Option R
  isFinite : R → Bool
  /-- Whole part of a positive number, capped at the largest 64-bit word. -/
  whole : R → Nat
  ofInt : Int → R

/-- Left-to-right sum from zero: the order of additions is part of the result. -/
def accumulate {K : Type} [Zero K] [Add K] (terms : List K) : K :=
  terms.foldl (· + ·) 0

end CircuitRunner
