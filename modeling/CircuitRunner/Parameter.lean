import CircuitRunner.Scalar

/-! Gate parameters: literal numbers and symbolic expressions. Arithmetic folds
literals and writes everything else as a parenthesised text. -/
namespace CircuitRunner

inductive Parameter (R : Type) where
  | literal (value : R)
  | symbol (expression : String)

namespace Parameter
variable {R : Type}

def isLiteral : Parameter R → Bool
  | .literal _ => true
  | .symbol _ => false

def value? : Parameter R → Option R
  | .literal value => some value
  | .symbol _ => none

def expression? : Parameter R → Option String
  | .literal _ => none
  | .symbol expression => some expression

def text [Literal R] : Parameter R → String
  | .literal value => Literal.text value
  | .symbol expression => expression

instance [Zero R] : Inhabited (Parameter R) := ⟨.literal 0⟩

instance [BEq R] : BEq (Parameter R) where
  beq
    | .literal x, .literal y => x == y
    | .symbol x, .symbol y => x == y
    | _, _ => false

/-- Two literals fold; otherwise the operands and the operator sign are written out. -/
def combine [Literal R] (sign : String) (fold : R → R → R) : Parameter R → Parameter R → Parameter R
  | .literal x, .literal y => .literal (fold x y)
  | left, right => .symbol s!"({left.text} {sign} {right.text})"

instance [Literal R] [Add R] : Add (Parameter R) := ⟨combine "+" (· + ·)⟩
instance [Literal R] [Sub R] : Sub (Parameter R) := ⟨combine "-" (· - ·)⟩
instance [Literal R] [Mul R] : Mul (Parameter R) := ⟨combine "*" (· * ·)⟩
instance [Literal R] [Div R] : Div (Parameter R) := ⟨combine "/" (· / ·)⟩

instance [Neg R] : Neg (Parameter R) where
  neg
    | .literal x => .literal (-x)
    | .symbol expression => .symbol s!"(-{expression})"

end Parameter
end CircuitRunner
