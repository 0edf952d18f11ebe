/-! Declarations of classical registers. -/
namespace CircuitRunner

inductive RegisterKind where
  | bit
  | float
  | complex
  deriving DecidableEq, Repr

namespace RegisterKind

def text : RegisterKind → String
  | .bit => "bit"
  | .float => "float"
  | .complex => "complex"

def definitionTag : RegisterKind → String
  | .bit => "DefinitionBit"
  | .float => "DefinitionFloat"
  | .complex => "DefinitionComplex"

end RegisterKind

structure Definition where
  kind : RegisterKind
  name : String
  length : Nat
  isOutput : Bool
  deriving DecidableEq, Repr

end CircuitRunner
