import Mathlib
import CircuitRunner.Measurement
import CircuitRunner.Proofs.ExactNumber
import CircuitRunner.Proofs.SucceedsWith

/-! Evaluation of products in exact arithmetic: when it succeeds, and the means it then returns. -/
namespace CircuitRunner

def Registers.rows {R : Type} (registers : Registers R) (name : String) : List (List Bool) :=
  (registers.bits.get? name).getD []

namespace ZProducts

def odd (row : List Bool) (entries : List Nat) : Bool :=
  entries.foldl (fun parity entry => parity ^^ row[entry]?.getD false) false

theorem parity_succeeds (row : List Bool) (entries : List Nat) :
    SucceedsWith (parity row entries) (∀ entry ∈ entries, entry < row.length) (odd row entries) := by
  apply SucceedsWith.foldlM
  intro parity entry result
  by_cases inside : entry < row.length <;> simp [inside]

noncomputable def sign (row : List Bool) (entries : List Nat) : ℝ := if odd row entries then -1 else 1

noncomputable def plainMean (rows : List (List Bool)) (entries : List Nat) : ℝ :=
  (rows.map (sign · entries)).sum / rows.length

noncomputable def expectation (outcomes : List (List Bool × ℝ)) (entries : List Nat) : ℝ :=
  (outcomes.map fun outcome => outcome.2 * sign outcome.1 entries).sum

/-- The sum of the signs, each weighted with what its row lacks of an equal share. -/
noncomputable def skew (outcomes : List (List Bool × ℝ)) (entries : List Nat) : ℝ :=
  (outcomes.map fun outcome => (1 / outcomes.length - outcome.2) * sign outcome.1 entries).sum

theorem plainMean_sub_expectation (outcomes : List (List Bool × ℝ)) (entries : List Nat) :
    plainMean (outcomes.map Prod.fst) entries - expectation outcomes entries = skew outcomes entries := by
  have share : plainMean (outcomes.map Prod.fst) entries =
      (outcomes.map fun outcome => 1 / (outcomes.length : ℝ) * sign outcome.1 entries).sum := by
    rw [List.sum_map_mul_left, plainMean, List.map_map, List.length_map, one_div_mul_eq_div]
    rfl
  rw [sub_eq_iff_eq_add, share, skew, expectation, ← List.sum_map_add]
  simp only [← add_mul, sub_add_cancel]

theorem skew_of_equal_shares {outcomes : List (List Bool × ℝ)}
    (equal : ∀ outcome ∈ outcomes, outcome.2 = 1 / outcomes.length) (entries : List Nat) :
    skew outcomes entries = 0 := by
  apply List.sum_eq_zero
  intro term member
  obtain ⟨outcome, listed, rfl⟩ := List.mem_map.1 member
  rw [equal outcome listed, sub_self, zero_mul]

def registered? {R : Type} (input : ZProducts R) (index : Nat) : Option (String × List Nat) :=
  (input.products.entries.flatMap fun register =>
    register.2.map fun product => (product.1, (register.1, product.2))).lookup index

noncomputable def combination (input : ZProducts ℝ) (value : String → List Nat → ℝ)
    (terms : List (Nat × ℝ)) : ℝ :=
  (terms.map fun term =>
    term.2 * ((input.registered? term.1).map fun product => value product.1 product.2).getD 0).sum

noncomputable def combine (input : ZProducts ℝ) (value : String → List Nat → ℝ) : Table ℝ where
  entries := input.combinations.entries.map fun output =>
    (output.1, input.combination value output.2)

theorem combination_sub (input : ZProducts ℝ) (first second : String → List Nat → ℝ)
    (terms : List (Nat × ℝ)) :
    input.combination (fun readout entries => first readout entries - second readout entries) terms =
      input.combination first terms - input.combination second terms := by
  unfold combination
  induction terms with
  | nil => simp
  | cons term terms ih =>
    rw [List.map_cons, List.map_cons, List.map_cons, List.sum_cons, List.sum_cons, List.sum_cons, ih]
    cases input.registered? term.1 with
    | none => simp
    | some product =>
      simp only [Option.map_some, Option.getD_some]
      ring

theorem combination_zero (input : ZProducts ℝ) (terms : List (Nat × ℝ)) :
    input.combination (fun _ _ => 0) terms = 0 := by
  simpa using input.combination_sub (fun _ _ => 0) (fun _ _ => 0) terms

theorem combine_eq_iff (input : ZProducts ℝ) (first second : String → List Nat → ℝ) :
    input.combine first = input.combine second ↔
      ∀ output ∈ input.combinations.entries,
        input.combination (fun readout entries => first readout entries - second readout entries)
          output.2 = 0 := by
  rw [combine, combine, Table.mk.injEq, List.map_inj_left]
  simp only [combination_sub, sub_eq_zero, Prod.mk.injEq, true_and]

def Covered {R : Type} (input : ZProducts R) (rows : String → List (List Bool)) : Prop :=
  ∀ register ∈ input.products.entries, rows register.1 ≠ [] ∧
    ∀ product ∈ register.2, ∀ row ∈ rows register.1, ∀ entry ∈ product.2, entry < row.length

theorem lookup_map_snd {α β : Type} (change : α → β) (items : List (Nat × α)) (index : Nat) :
    (items.map fun item => (item.1, change item.2)).lookup index = (items.lookup index).map change := by
  induction items with
  | nil => rfl
  | cons item items ih =>
    rw [List.map_cons, List.lookup_cons, List.lookup_cons, ih]
    cases index == item.1 <;> rfl

theorem lookup_values {R : Type} (input : ZProducts R) (value : String → List Nat → ℝ) (index : Nat) :
    (input.products.entries.map fun register => register.2.map fun product =>
        (product.1, value register.1 product.2)).flatten.lookup index =
      (input.registered? index).map fun product => value product.1 product.2 := by
  have listed : (input.products.entries.map fun register => register.2.map fun product =>
        (product.1, value register.1 product.2)).flatten =
      (input.products.entries.flatMap fun register =>
        register.2.map fun product => (product.1, (register.1, product.2))).map fun item =>
          (item.1, value item.2.1 item.2.2) := by
    simp [List.flatMap, List.map_flatten, Function.comp_def]
  rw [listed, lookup_map_snd fun product : String × List Nat => value product.1 product.2, registered?]

section Exact
variable [Literal ℝ] (counts : ∀ number : Int, (Literal.ofInt number : ℝ) = number)
include counts

theorem average_succeeds (rows : List (List Bool)) (entries : List Nat) :
    SucceedsWith (average rows entries) (∀ row ∈ rows, ∀ entry ∈ entries, entry < row.length)
      (plainMean rows entries) := by
  have signs := SucceedsWith.mapM fun row (_ : row ∈ rows) =>
    (parity_succeeds row entries).bind_pure fun parity => if parity then (-1 : ℝ) else 1
  have mean := signs.bind_pure fun signs => accumulate signs / (Literal.ofInt rows.length : ℝ)
  have value : plainMean rows entries =
      accumulate (rows.map (sign · entries)) / (Literal.ofInt rows.length : ℝ) := by
    rw [accumulate_eq_sum, counts, Int.cast_natCast, plainMean]
  rw [value]
  exact mean

theorem averages_succeeds (registers : Registers ℝ) (readout : String)
    (products : List (Nat × List Nat)) :
    SucceedsWith (averages registers readout products)
      (registers.rows readout ≠ [] ∧ ∀ product ∈ products, ∀ row ∈ registers.rows readout,
        ∀ entry ∈ product.2, entry < row.length)
      (products.map fun product => (product.1, plainMean (registers.rows readout) product.2)) := by
  unfold averages Registers.rows
  split
  · rename_i missing
    intro result
    simp [missing]
  · rename_i noRows
    intro result
    simp [noRows]
  · rename_i rows present some_rows
    rw [some_rows, Option.getD_some]
    have means := SucceedsWith.mapM fun product (_ : product ∈ products) =>
      (average_succeeds counts rows product.2).bind_pure fun mean => (product.1, mean)
    exact means.congr ⟨fun inside => ⟨present, inside⟩, And.right⟩

/-- Evaluation succeeds for covered products only, and combines their plain means. -/
theorem evaluate_succeeds (input : ZProducts ℝ) (registers : Registers ℝ) :
    SucceedsWith (input.evaluate registers) (input.Covered registers.rows)
      (input.combine fun readout => plainMean (registers.rows readout)) := by
  have means := SucceedsWith.mapM fun register (_ : register ∈ input.products.entries) =>
    averages_succeeds counts registers register.1 register.2
  have outputs := means.bind_pure fun values : List (List (Nat × ℝ)) =>
    (Table.mk (input.combinations.entries.map fun output => (output.1,
      accumulate (output.2.map fun term => term.2 * (values.flatten.lookup term.1).getD 0))))
  simp only [input.lookup_values fun readout => plainMean (registers.rows readout)] at outputs
  simp only [combine, combination, ← accumulate_eq_sum]
  exact outputs

end Exact
end ZProducts
end CircuitRunner
