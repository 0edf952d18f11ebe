import CircuitRunner.Circuit
import CircuitRunner.Registers

/-! Measurement schemes: circuits that are run together, and expectation values of products
of Pauli Z operators estimated from their bit registers. -/
namespace CircuitRunner

inductive EvaluationError where
  | entryExceedsQubits (entry numberOfQubits : Nat)
  | productNotRegistered (index : Nat)
  | notMeasured (readout : String)
  | noShots (readout : String)
  | entryOutOfRange (entry length : Nat)
  deriving DecidableEq, Repr

def EvaluationError.message : EvaluationError → String
  | .entryExceedsQubits entry numberOfQubits =>
    s!"product entry {entry} exceeds the {numberOfQubits} measured qubits"
  | .productNotRegistered index => s!"product index {index} is not registered"
  | .notMeasured readout => s!"bit register '{readout}' was not measured"
  | .noShots readout => s!"bit register '{readout}' has no shots"
  | .entryOutOfRange entry length => s!"entry {entry} out of range for a row of length {length}"

structure ZProducts (R : Type) where
  numberOfQubits : Nat
  /-- For each readout register its products: index and entries. -/
  products : Table (List (Nat × List Nat))
  numberOfProducts : Nat
  /-- For each output the coefficients of products. -/
  combinations : Table (List (Nat × R))

namespace ZProducts
variable {R : Type}

def empty (numberOfQubits : Nat) : ZProducts R := ⟨numberOfQubits, .empty, 0, .empty⟩

/-- Registers a product over entries of a readout register and returns its index. A product
that is there already keeps its index. -/
def addProduct (input : ZProducts R) (readout : String) (entries : List Nat) :
    Except EvaluationError (Nat × ZProducts R) :=
  match entries.find? (input.numberOfQubits ≤ ·) with
  | some entry => .error (.entryExceedsQubits entry input.numberOfQubits)
  | none =>
    let known := (input.products.get? readout).getD []
    match known.find? (·.2 == entries) with
    | some product => .ok (product.1, input)
    | none =>
      let index := input.numberOfProducts
      .ok (index, { input with
        products := input.products.insert readout (known ++ [(index, entries)])
        numberOfProducts := index + 1 })

/-- The coefficient list in which the last of several coefficients for a product stays. -/
def distinctCoefficients (coefficients : List (Nat × R)) : List (Nat × R) :=
  coefficients.foldl (fun kept entry => kept.filter (·.1 != entry.1) ++ [entry]) []

def addCombination (input : ZProducts R) (name : String) (coefficients : List (Nat × R)) :
    Except EvaluationError (ZProducts R) :=
  match coefficients.find? (input.numberOfProducts ≤ ·.1) with
  | some entry => .error (.productNotRegistered entry.1)
  | none => .ok { input with
      combinations := input.combinations.insert name (distinctCoefficients coefficients) }

def parity (row : List Bool) (entries : List Nat) : Except EvaluationError Bool :=
  entries.foldlM (fun parity entry =>
    match row[entry]? with
    | some bit => .ok (parity ^^ bit)
    | none => .error (.entryOutOfRange entry row.length)) false

variable [Scalar R] [Literal R]

def average (rows : List (List Bool)) (entries : List Nat) : Except EvaluationError R := do
  let signs ← rows.mapM fun row => do
    return if ← parity row entries then (-1 : R) else 1
  return accumulate signs / Literal.ofInt rows.length

def averages (registers : Registers R) (readout : String) (products : List (Nat × List Nat)) :
    Except EvaluationError (List (Nat × R)) :=
  match registers.bits.get? readout with
  | none => .error (.notMeasured readout)
  | some [] => .error (.noShots readout)
  | some rows => products.mapM fun (index, entries) => do return (index, ← average rows entries)

def evaluate (input : ZProducts R) (registers : Registers R) : Except EvaluationError (Table R) := do
  let values ← input.products.entries.mapM fun (readout, products) =>
    averages registers readout products
  let value (index : Nat) : R := (values.flatten.lookup index).getD 0
  return ⟨input.combinations.entries.map fun (name, coefficients) =>
    (name, accumulate (coefficients.map fun (index, coefficient) => coefficient * value index))⟩

end ZProducts

/-- Circuits whose outputs belong together. The constant circuit is put in front of each;
without products only the registers are collected. -/
structure Measurement (R : Type) where
  constant : Option (Circuit R)
  circuits : List (Circuit R)
  products : Option (ZProducts R)

namespace Measurement
variable {R : Type}

def runs (measurement : Measurement R) : List (Circuit R) :=
  measurement.circuits.map fun circuit => (measurement.constant.getD []) ++ circuit

def evaluate [Scalar R] [Literal R] (measurement : Measurement R) (registers : Registers R) :
    Except EvaluationError (Option (Table R)) :=
  match measurement.products with
  | none => .ok none
  | some products => (products.evaluate registers).map some

end Measurement
end CircuitRunner
