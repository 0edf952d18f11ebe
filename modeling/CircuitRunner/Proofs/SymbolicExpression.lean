import Mathlib
import CircuitRunner.Parameter
import CircuitRunner.Proofs.DoubleText
import CircuitRunner.Proofs.FormulaParser
import CircuitRunner.Proofs.NegatedSymbol

/-! Arithmetic on parameters as trees. A tree is read back from the text of its value up to the folding of literals, so
two trees have the same text only if they are the same once every subtree without symbols is a literal. -/
namespace CircuitRunner

def Formula.ofLiteral : List Char → Formula
  | '-' :: digits => .negation (.number digits)
  | digits => .number digits

theorem Formula.ofLiteral_injective : Function.Injective Formula.ofLiteral := by
  intro first second same
  unfold Formula.ofLiteral at same
  split at same <;> split at same <;> cases same <;> rfl

/-- Finite numbers are written with digits and points after an optional minus sign, and no two of them alike. -/
structure FaithfulText (R : Type) [Literal R] : Prop where
  numeral : ∀ {x : R}, Literal.isFinite x = true → ∃ digits, Formula.isNumeral digits = true ∧
    ((Literal.text x).toList = digits ∨ (Literal.text x).toList = '-' :: digits)
  injective : ∀ {x y : R}, Literal.isFinite x = true → Literal.isFinite y = true →
    Literal.text x = Literal.text y → x = y

theorem FaithfulText.reads {R : Type} [Literal R] (faithful : FaithfulText R) {x : R}
    (finite : Literal.isFinite x = true) :
    Formula.Reads (Literal.text x).toList (.ofLiteral (Literal.text x).toList) := by
  obtain ⟨digits, numeral, unsigned | signed⟩ := faithful.numeral finite
  · have positive : Formula.ofLiteral digits = .number digits := by
      unfold Formula.ofLiteral
      split
      · cases numeral
      · rfl
    rw [unsigned, positive]
    exact .number numeral
  · rw [signed]
    exact (Formula.Reads.number numeral).minus

theorem Double.faithfulText : FaithfulText Float where
  numeral {x} finite := by
    refine ⟨_, isNumeral_positional (decimal x).1 (decimal x).2, ?_⟩
    change (text x).toList = _ ∨ (text x).toList = _
    rw [text_of_isFinite finite]
    split
    · exact .inr List.singleton_append
    · exact .inl (List.nil_append _)
  injective := text_injective

theorem Arithmetic.apply_parameter {R : Type} [Literal R] [Add R] [Sub R] [Mul R] [Div R] (operation : Arithmetic)
    (left right : Parameter R) :
    operation.apply left right = Parameter.combine operation.sign.toString operation.apply left right := by
  cases operation <;> rfl

inductive Expression (R : Type) where
  | symbol (name : String)
  | literal (value : R)
  | negation (operand : Expression R)
  | binary (operation : Arithmetic) (left right : Expression R)

namespace Expression
variable {R : Type}

def formula [Literal R] : Expression R → Formula
  | .symbol name => .name name.toList
  | .literal value => .ofLiteral (Literal.text value).toList
  | .negation operand => .negation operand.formula
  | .binary operation left right => .binary operation left.formula right.formula

variable [Add R] [Sub R] [Mul R] [Div R] [Neg R]

def value? : Expression R → Option R
  | .symbol _ => none
  | .literal value => some value
  | .negation operand => operand.value?.map (- ·)
  | .binary operation left right => Option.map₂ operation.apply left.value? right.value?

def fold : Expression R → Expression R
  | .symbol name => .symbol name
  | .literal value => .literal value
  | .negation operand => (value? (.negation operand)).elim (.negation operand.fold) .literal
  | .binary operation left right =>
    (value? (.binary operation left right)).elim (.binary operation left.fold right.fold) .literal

theorem fold_of_value? {expression : Expression R} {value : R} (known : expression.value? = some value) :
    expression.fold = .literal value := by
  cases expression with
  | symbol => cases known
  | literal =>
    cases known
    rfl
  | negation | binary => rw [fold, known, Option.elim_some]

theorem fold_negation {operand : Expression R} (symbolic : value? (.negation operand) = none) :
    fold (.negation operand) = .negation operand.fold := by
  rw [fold, symbolic, Option.elim_none]

theorem fold_binary {operation : Arithmetic} {left right : Expression R}
    (symbolic : value? (.binary operation left right) = none) :
    fold (.binary operation left right) = .binary operation left.fold right.fold := by
  rw [fold, symbolic, Option.elim_none]

/-- Induction that stops where a tree has a number, as folding does. -/
@[elab_as_elim]
theorem fold_induction {motive : Expression R → Prop} (symbol : ∀ name, motive (.symbol name))
    (known : ∀ expression value, value? expression = some value → motive expression)
    (negation : ∀ operand, value? (.negation operand) = none → motive operand → motive (.negation operand))
    (binary : ∀ operation left right, value? (.binary operation left right) = none →
      motive left → motive right →
      motive (.binary operation left right)) (expression : Expression R) : motive expression := by
  induction expression with
  | symbol name => exact symbol name
  | literal value => exact known _ value rfl
  | negation operand ih =>
    cases number : value? (.negation operand) with
    | some value => exact known _ value number
    | none => exact negation operand number ih
  | binary operation left right ih ih' =>
    cases number : value? (.binary operation left right) with
    | some value => exact known _ value number
    | none => exact binary operation left right number ih ih'

variable [Literal R]

def evaluate : Expression R → Parameter R
  | .symbol name => .symbol name
  | .literal value => .literal value
  | .negation operand => -operand.evaluate
  | .binary operation left right => operation.apply left.evaluate right.evaluate

/-- Symbols are identifiers, and no literal is infinite or not a number, whether it is written or folded. -/
def admissible : Expression R → Bool
  | .symbol name => Formula.isIdentifier name.toList
  | .literal value => Literal.isFinite value
  | .negation operand => operand.admissible && (value? (.negation operand)).all Literal.isFinite
  | .binary operation left right =>
    left.admissible && right.admissible && (value? (.binary operation left right)).all Literal.isFinite

theorem value?_evaluate (expression : Expression R) : expression.evaluate.value? = expression.value? := by
  induction expression with
  | symbol | literal => rfl
  | negation operand ih =>
    rw [evaluate, value?, ← ih]
    cases operand.evaluate <;> rfl
  | binary operation left right ih ih' =>
    rw [evaluate, value?, ← ih, ← ih', operation.apply_parameter]
    cases left.evaluate <;> cases right.evaluate <;> rfl

theorem evaluate_of_value? {expression : Expression R} {value : R} (known : expression.value? = some value) :
    expression.evaluate = .literal value := by
  rw [← value?_evaluate] at known
  cases evaluated : expression.evaluate <;> rw [evaluated] at known <;> cases known
  rfl

theorem isFinite_of_value? {expression : Expression R} (admitted : expression.admissible = true) {value : R}
    (known : expression.value? = some value) : Literal.isFinite value = true := by
  cases expression with
  | symbol => cases known
  | literal =>
    cases known
    exact admitted
  | negation | binary =>
    simp only [admissible, known, Option.all_some, Bool.and_eq_true] at admitted
    exact admitted.2

theorem text_negation {operand : Expression R} (symbolic : value? (.negation operand) = none) :
    (evaluate (.negation operand)).text.toList = '(' :: (('-' :: operand.evaluate.text.toList) ++ [')']) := by
  rw [← value?_evaluate] at symbolic
  rw [evaluate] at symbolic ⊢
  cases evaluated : operand.evaluate <;> rw [evaluated] at symbolic
  case literal => cases symbolic
  case symbol expression =>
    change (negationText expression).toList = _
    rw [toList_negationText]
    rfl

theorem text_binary {operation : Arithmetic} {left right : Expression R}
    (symbolic : value? (.binary operation left right) = none) :
    (evaluate (.binary operation left right)).text.toList = '(' :: (left.evaluate.text.toList ++
      ' ' :: operation.sign :: ' ' :: (right.evaluate.text.toList ++ [')'])) := by
  rw [← value?_evaluate] at symbolic
  rw [evaluate, operation.apply_parameter] at symbolic ⊢
  generalize left.evaluate = left, right.evaluate = right at symbolic ⊢
  cases left <;> cases right
  case literal.literal => cases symbolic
  all_goals simp [Parameter.combine, Parameter.text, toString, Char.toString]

theorem evaluate_fold (expression : Expression R) : expression.fold.evaluate = expression.evaluate := by
  induction expression using fold_induction with
  | symbol => rfl
  | known expression value number =>
    rw [fold_of_value? number, evaluate_of_value? number]
    rfl
  | negation operand symbolic ih => rw [fold_negation symbolic, evaluate, evaluate, ih]
  | binary operation left right symbolic ih ih' => rw [fold_binary symbolic, evaluate, evaluate, ih, ih']

theorem value?_fold (expression : Expression R) : expression.fold.value? = expression.value? := by
  rw [← value?_evaluate, evaluate_fold, value?_evaluate]

/-- The text of a value reads as the folded tree. -/
theorem reads_evaluate (faithful : FaithfulText R) {expression : Expression R}
    (admitted : expression.admissible = true) :
    Formula.Reads expression.evaluate.text.toList expression.fold.formula := by
  induction expression using fold_induction with
  | symbol name => exact .name admitted
  | known expression value number =>
    rw [evaluate_of_value? number, fold_of_value? number]
    exact faithful.reads (isFinite_of_value? admitted number)
  | negation operand symbolic ih =>
    rw [text_negation symbolic, fold_negation symbolic]
    simp only [admissible, Bool.and_eq_true] at admitted
    exact (ih admitted.1).minus.bracket
  | binary operation left right symbolic ih ih' =>
    rw [text_binary symbolic, fold_binary symbolic]
    simp only [admissible, Bool.and_eq_true] at admitted
    exact (ih admitted.1.1).binary (ih' admitted.1.2) operation

inductive Folded : Expression R → Prop where
  | symbol (name : String) : Folded (.symbol name)
  | literal (value : R) (finite : Literal.isFinite value = true) : Folded (.literal value)
  | negation (operand : Expression R) (symbolic : value? (.negation operand) = none) (folded : Folded operand) :
    Folded (.negation operand)
  | binary (operation : Arithmetic) (left right : Expression R)
    (symbolic : value? (.binary operation left right) = none) (folded : Folded left) (folded' : Folded right) :
    Folded (.binary operation left right)

theorem folded_fold {expression : Expression R} (admitted : expression.admissible = true) :
    Folded expression.fold := by
  induction expression using fold_induction with
  | symbol name => exact .symbol name
  | known expression value number =>
    rw [fold_of_value? number]
    exact .literal value (isFinite_of_value? admitted number)
  | negation operand symbolic ih =>
    rw [fold_negation symbolic]
    simp only [admissible, Bool.and_eq_true] at admitted
    exact .negation _ (by rw [value?, value?_fold]; exact symbolic) (ih admitted.1)
  | binary operation left right symbolic ih ih' =>
    rw [fold_binary symbolic]
    simp only [admissible, Bool.and_eq_true] at admitted
    exact .binary _ _ _ (by rw [value?, value?_fold, value?_fold]; exact symbolic) (ih admitted.1.1) (ih' admitted.1.2)

theorem formula_ne_number {expression : Expression R} (symbolic : expression.value? = none) (digits : List Char) :
    expression.formula ≠ .number digits := by
  cases expression with
  | literal => cases symbolic
  | symbol | negation | binary => simp [formula]

/-- A literal with a minus sign negates a number, and a symbolic tree never does. -/
theorem ofLiteral_ne_formula (chars : List Char) {expression : Expression R} (symbolic : expression.value? = none) :
    Formula.ofLiteral chars ≠ expression.formula := by
  unfold Formula.ofLiteral
  split
  case h_2 => exact (formula_ne_number symbolic _).symm
  case h_1 digits =>
    cases expression with
    | literal => cases symbolic
    | symbol | binary => simp [formula]
    | negation operand =>
      rw [value?, Option.map_eq_none_iff] at symbolic
      simpa [formula] using (formula_ne_number symbolic digits).symm

theorem formula_injective (faithful : FaithfulText R) {first second : Expression R} (folded : Folded first)
    (folded' : Folded second) (same : first.formula = second.formula) : first = second := by
  induction folded generalizing second with
  | symbol name =>
    cases folded' with
    | symbol name' => rw [String.toList_injective (Formula.name.inj same)]
    | literal value' => exact absurd same.symm (ofLiteral_ne_formula _ rfl)
    | negation | binary => cases same
  | literal value finite =>
    cases folded' with
    | symbol name' => exact absurd same (ofLiteral_ne_formula _ rfl)
    | literal value' finite' =>
      have text := String.toList_injective (Formula.ofLiteral_injective same)
      rw [faithful.injective finite finite' text]
    | negation _ symbolic' | binary _ _ _ symbolic' => exact absurd same (ofLiteral_ne_formula _ symbolic')
  | negation operand symbolic folded ih =>
    cases folded' with
    | symbol | binary => cases same
    | literal value' => exact absurd same.symm (ofLiteral_ne_formula _ symbolic)
    | negation operand' symbolic' folded' => rw [ih folded' (Formula.negation.inj same)]
  | binary operation left right symbolic folded _ ih ih' =>
    cases folded' with
    | symbol | negation => cases same
    | literal value' => exact absurd same.symm (ofLiteral_ne_formula _ symbolic)
    | binary operation' left' right' symbolic' first second =>
      obtain ⟨operation_eq, left_eq, right_eq⟩ := Formula.binary.inj same
      rw [operation_eq, ih first left_eq, ih' second right_eq]

theorem fold_eq_of_text (faithful : FaithfulText R) {first second : Expression R} (admitted : first.admissible = true)
    (admitted' : second.admissible = true) (same : first.evaluate.text = second.evaluate.text) :
    first.fold = second.fold := by
  have formulas : some first.fold.formula = some second.fold.formula := by
    rw [← (reads_evaluate faithful admitted).parse, ← (reads_evaluate faithful admitted').parse, same]
  exact formula_injective faithful (folded_fold admitted) (folded_fold admitted') (Option.some.inj formulas)

theorem evaluate_eq_of_fold {first second : Expression R} (same : first.fold = second.fold) :
    first.evaluate = second.evaluate := by
  rw [← evaluate_fold, same, evaluate_fold]

/-- A value read by the parser gives the folded tree, so values, their texts and folded trees tell the same trees
apart. -/
theorem evaluate_text_readable (first second : Expression Float) (admitted : first.admissible = true)
    (admitted' : second.admissible = true) :
    Formula.parse first.evaluate.text.toList = some first.fold.formula ∧
      (first.evaluate = second.evaluate ↔ first.fold = second.fold) ∧
      (first.evaluate.text = second.evaluate.text ↔ first.fold = second.fold) := by
  have unread := fold_eq_of_text Double.faithfulText admitted admitted'
  refine ⟨(reads_evaluate Double.faithfulText admitted).parse, ⟨?_, evaluate_eq_of_fold⟩, unread, ?_⟩
  · intro same
    exact unread (congrArg Parameter.text same)
  · intro same
    exact congrArg Parameter.text (evaluate_eq_of_fold same)

/-- A negative literal in a sum, against the negation of a sum. -/
theorem evaluate_text_readable_negative_term :
    let sum := Expression.binary .add (.negation (.literal (2 : Float))) (.symbol "theta_1")
    let negated := Expression.negation (.binary .add (.literal (2 : Float)) (.symbol "theta_1"))
    sum.admissible = true ∧ negated.admissible = true ∧
      Formula.parse sum.evaluate.text.toList = some sum.fold.formula ∧
      (sum.evaluate = negated.evaluate ↔ sum.fold = negated.fold) ∧
      (sum.evaluate.text = negated.evaluate.text ↔ sum.fold = negated.fold) :=
  ⟨by decide +kernel, by decide +kernel, evaluate_text_readable _ _ (by decide +kernel) (by decide +kernel)⟩

end Expression
end CircuitRunner
