import CircuitRunner.Scalar
import CircuitRunner.Text.Blank

/-! Values of named variables, and the expressions that they resolve: a name or a
number literal behind any number of minus signs. -/
namespace CircuitRunner

inductive ResolutionError where
  | unknownSymbol (name : String)
  | emptyExpression (expression : String)
  deriving DecidableEq, Repr

def ResolutionError.message : ResolutionError → String
  | .unknownSymbol name => s!"Unknown symbol '{name}'"
  | .emptyExpression expression => s!"Cannot evaluate '{expression}': empty expression"

abbrev Resolver (R : Type) := String → Except ResolutionError R

structure Assignment (R : Type) where
  entries : List (String × R)

namespace Assignment
variable {R : Type}

def empty : Assignment R := ⟨[]⟩

def insert (assignment : Assignment R) (name : String) (value : R) : Assignment R :=
  ⟨(name, value) :: assignment.entries⟩

def ofList (entries : List (String × R)) : Assignment R :=
  entries.foldl (fun assignment entry => assignment.insert entry.1 entry.2) empty

def get? (assignment : Assignment R) (name : String) : Option R := assignment.entries.lookup name

/-- The value of an expression. Blanks around it and around each minus sign are
skipped, and a number literal is never taken for a variable. -/
def resolveChars [Literal R] [Neg R] (assignment : Assignment R) (expression : List Char) :
    Except ResolutionError R :=
  match _trimmed : Text.trimChars expression with
  | '-' :: rest => (assignment.resolveChars rest).map (- ·)
  | body =>
    match Literal.read (String.ofList body) with
    | some value => .ok value
    | none =>
      if body.isEmpty then .error (.emptyExpression (String.ofList expression))
      else match assignment.get? (String.ofList body) with
        | some value => .ok value
        | none => .error (.unknownSymbol (String.ofList body))
termination_by expression.length
decreasing_by
  have shorter := Text.length_trimChars_le expression
  rw [_trimmed, List.length_cons] at shorter
  exact shorter

def resolve [Literal R] [Neg R] (assignment : Assignment R) (expression : String) :
    Except ResolutionError R :=
  assignment.resolveChars expression.toList

instance [Literal R] [Neg R] : Coe (Option (Assignment R)) (Option (Resolver R)) :=
  ⟨Option.map resolve⟩

end Assignment
end CircuitRunner
