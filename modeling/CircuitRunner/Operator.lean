import CircuitRunner.Scalar

/-! Rectangular matrices, read through their entries. -/
namespace CircuitRunner

structure Operator (K : Type) where
  rows : Nat
  columns : Nat
  entries : Vector (Vector K columns) rows

namespace Operator
variable {K : Type}

def tabulate (rows columns : Nat) (value : Nat → Nat → K) : Operator K :=
  ⟨rows, columns, .ofFn fun row => .ofFn fun column => value row column⟩

@[simp] theorem rows_tabulate (rows columns : Nat) (value : Nat → Nat → K) :
    (tabulate rows columns value).rows = rows := rfl

@[simp] theorem columns_tabulate (rows columns : Nat) (value : Nat → Nat → K) :
    (tabulate rows columns value).columns = columns := rfl

def entry [Zero K] (operator : Operator K) (row column : Nat) : K :=
  if h : row < operator.rows then
    if h' : column < operator.columns then operator.entries[row][column] else 0
  else 0

theorem entry_tabulate [Zero K] (rows columns : Nat) (value : Nat → Nat → K) {row column : Nat}
    (inRows : row < rows) (inColumns : column < columns) :
    (tabulate rows columns value).entry row column = value row column := by
  simp [entry, tabulate, inRows, inColumns]

def ofRows [Zero K] (rows : List (List K)) : Operator K :=
  tabulate rows.length ((rows.head?.map List.length).getD 0) fun row column =>
    ((rows[row]?).bind (·[column]?)).getD 0

def toRows [Zero K] (operator : Operator K) : List (List K) :=
  (List.range operator.rows).map fun row =>
    (List.range operator.columns).map fun column => operator.entry row column

instance [Zero K] [BEq K] : BEq (Operator K) :=
  ⟨fun left right => left.rows == right.rows && left.columns == right.columns &&
    left.toRows == right.toRows⟩

/-- Block matrix `[[1, 0], [0, U]]` of twice the rows of `U`. A single column is
repeated over the lower block; any other column count has no block to fill. -/
def controlled [Zero K] [One K] (operator : Operator K) : Option (Operator K) :=
  let size := operator.rows
  if operator.columns = size ∨ operator.columns = 1 then
    some <| tabulate (2 * size) (2 * size) fun row column =>
      if row < size ∨ column < size then
        if row = column then 1 else 0
      else operator.entry (row - size) (if operator.columns = size then column - size else 0)
  else none

def kronecker [Zero K] [Mul K] (left right : Operator K) : Operator K :=
  tabulate (left.rows * right.rows) (left.columns * right.columns) fun row column =>
    left.entry (row / right.rows) (column / right.columns) *
      right.entry (row % right.rows) (column % right.columns)

def tensorPower [Zero K] [One K] [Mul K] (operator : Operator K) : Nat → Operator K
  | 0 => tabulate 1 1 fun _ _ => 1
  | power + 1 => (operator.tensorPower power).kronecker operator

end Operator
end CircuitRunner
