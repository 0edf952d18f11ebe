import CircuitRunner.Measurement
import CircuitRunner.Proofs.SucceedsWith

/-! Evaluation with the averages of the products kept in a vector. Each average is written to the place of its
index and read from there, and an access outside the vector is an error of its own. Where the products have
different indices below the length of the vector, and outputs name no others, that error does not occur and
the outputs are those of an evaluation that looks the indices up. -/
namespace CircuitRunner.ZProducts
variable {R : Type}

def listing (input : ZProducts R) : List (Nat × String × List Nat) :=
  input.products.entries.flatMap fun register =>
    register.2.map fun product => (product.1, (register.1, product.2))

inductive VectorError where
  | outside (index length : Nat)
  | evaluation (error : EvaluationError)

def store (values : Array R) (index : Nat) (value : R) : Except VectorError (Array R) :=
  if h : index < values.size then .ok (values.set index value) else .error (.outside index values.size)

def load (values : Array R) (index : Nat) : Except VectorError R :=
  if h : index < values.size then .ok values[index] else .error (.outside index values.size)

def filled (values : Array R) (pairs : List (Nat × R)) : Array R :=
  pairs.foldl (fun values pair => values.setIfInBounds pair.1 pair.2) values

theorem size_filled (values : Array R) (pairs : List (Nat × R)) : (filled values pairs).size = values.size := by
  induction pairs generalizing values with
  | nil => rfl
  | cons pair pairs ih => exact (ih _).trans Array.size_setIfInBounds

theorem store_ok {values : Array R} {index : Nat} (inside : index < values.size) (value : R) :
    store values index value = .ok (filled values [(index, value)]) := by
  simp [store, filled, inside, Array.setIfInBounds]

theorem load_ok [Zero R] {values : Array R} {index : Nat} (inside : index < values.size) :
    load values index = .ok (values[index]?.getD 0) := by
  simp [load, inside]

/-- A value is found at its place, whatever is written to other places. -/
theorem getElem?_filled {pairs : List (Nat × R)} (distinct : (pairs.map Prod.fst).Nodup) {values : Array R}
    {index : Nat} (inside : index < values.size) :
    (filled values pairs)[index]? = (pairs.lookup index).or values[index]? := by
  induction pairs generalizing values with
  | nil => rfl
  | cons pair pairs ih =>
    obtain ⟨place, value⟩ := pair
    obtain ⟨fresh, distinctRest⟩ := List.nodup_cons.1 distinct
    have insideNext : index < (values.setIfInBounds place value).size := by simpa using inside
    refine (ih distinctRest insideNext).trans ?_
    rw [List.lookup_cons]
    by_cases same : index = place
    · subst same
      have missing : pairs.lookup index = none := by
        rw [List.lookup_eq_none_iff]
        intro pair member
        simpa using fun same => fresh (List.mem_map.2 ⟨pair, member, same.symm⟩)
      simp [missing, inside]
    · rw [beq_false_of_ne same, Array.getElem?_setIfInBounds_ne (Ne.symm same)]

theorem load_filled [Zero R] {pairs : List (Nat × R)} (distinct : (pairs.map Prod.fst).Nodup) {length index : Nat}
    (below : index < length) :
    load (filled (Array.replicate length 0) pairs) index = .ok ((pairs.lookup index).getD 0) := by
  have within : index < (Array.replicate length (0 : R)).size := by simpa using below
  rw [load_ok (by rw [size_filled]; exact within), getElem?_filled distinct within]
  cases pairs.lookup index <;> simp [below]

/-- A run whose steps all write some values is one write of all of them, unless a step fails. -/
theorem foldlM_filled {ε α : Type} {attempt : α → Except ε (List (Nat × R))}
    {step : Array R → α → Except ε (Array R)} {items : List α} {length : Nat}
    (each : ∀ item ∈ items, ∀ values : Array R, values.size = length →
      step values item = (attempt item).map (filled values))
    {values : Array R} (sized : values.size = length) :
    items.foldlM step values = (items.mapM attempt).map fun written => filled values written.flatten := by
  induction items generalizing values with
  | nil => rfl
  | cons item items ih =>
    rw [List.foldlM_cons, List.mapM_cons, each item List.mem_cons_self values sized]
    cases attempt item with
    | error error => rfl
    | ok pairs =>
      refine (ih (fun other member => each other (List.mem_cons_of_mem _ member))
        ((size_filled values pairs).trans sized)).trans ?_
      cases items.mapM attempt with
      | error error => rfl
      | ok written => exact congrArg Except.ok List.foldl_append.symm

def measuredRows (registers : Registers R) (readout : String) : Except EvaluationError (List (List Bool)) :=
  match registers.bits.get? readout with
  | none => .error (.notMeasured readout)
  | some [] => .error (.noShots readout)
  | some rows => .ok rows

variable [Scalar R]

def readOutput (values : Array R) (output : String × List (Nat × R)) : Except VectorError (String × R) := do
  let terms ← output.2.mapM fun term => do return term.2 * (← load values term.1)
  return (output.1, accumulate terms)

theorem readOutput_filled {pairs : List (Nat × R)} (distinct : (pairs.map Prod.fst).Nodup) {length : Nat}
    {output : String × List (Nat × R)} (known : ∀ term ∈ output.2, term.1 < length) :
    readOutput (filled (Array.replicate length 0) pairs) output = .ok (output.1,
      accumulate (output.2.map fun term => term.2 * (pairs.lookup term.1).getD 0)) := by
  have terms : (output.2.mapM fun term => do
        return term.2 * (← load (filled (Array.replicate length 0) pairs) term.1)) =
      .ok (output.2.map fun term => term.2 * (pairs.lookup term.1).getD 0) := by
    refine mapM_ok fun term listed => ?_
    rw [load_filled distinct (known term listed)]
    rfl
  rw [readOutput, terms]
  rfl

variable [Literal R]

def averagesOver (rows : List (List Bool)) (products : List (Nat × List Nat)) :
    Except EvaluationError (List (Nat × R)) :=
  products.mapM fun product => do return (product.1, ← average rows product.2)

def fillProducts (rows : List (List Bool)) (values : Array R) (products : List (Nat × List Nat)) :
    Except VectorError (Array R) :=
  products.foldlM (fun values product => do
    let mean ← (average rows product.2).mapError .evaluation
    store values product.1 mean) values

def fillRegister (registers : Registers R) (values : Array R) (register : String × List (Nat × List Nat)) :
    Except VectorError (Array R) := do
  let rows ← (measuredRows registers register.1).mapError .evaluation
  fillProducts rows values register.2

/-- Evaluation that fills a vector of zeros register by register and reads the outputs off it. -/
def evaluateVector (input : ZProducts R) (registers : Registers R) : Except VectorError (Table R) := do
  let values ← input.products.entries.foldlM (fillRegister registers) (Array.replicate input.numberOfProducts 0)
  return ⟨← input.combinations.entries.mapM (readOutput values)⟩

theorem averages_eq (registers : Registers R) (readout : String) (products : List (Nat × List Nat)) :
    averages registers readout products =
      measuredRows registers readout >>= fun rows => averagesOver rows products := by
  unfold averages measuredRows averagesOver
  rcases registers.bits.get? readout with _ | _ | ⟨row, rows⟩ <;> rfl

theorem fillProducts_eq {rows : List (List Bool)} {products : List (Nat × List Nat)} {length : Nat}
    (inside : ∀ product ∈ products, product.1 < length) {values : Array R} (sized : values.size = length) :
    fillProducts rows values products =
      ((averagesOver rows products).mapError VectorError.evaluation).map (filled values) := by
  unfold fillProducts averagesOver
  induction products generalizing values with
  | nil => rfl
  | cons product products ih =>
    obtain ⟨first, rest⟩ := List.forall_mem_cons.1 inside
    rw [List.foldlM_cons, List.mapM_cons]
    cases (average rows product.2 : Except EvaluationError R) with
    | error error => rfl
    | ok mean =>
      have next := ih rest ((size_filled values [(product.1, mean)]).trans sized)
      change (store values product.1 mean >>= _) = _
      rw [store_ok (sized ▸ first)]
      refine Eq.trans next ?_
      cases others : (averagesOver rows products : Except EvaluationError (List (Nat × R)))
      all_goals
        unfold averagesOver at others
        rw [others]
        rfl

theorem fillRegister_eq {registers : Registers R} {register : String × List (Nat × List Nat)} {length : Nat}
    (inside : ∀ product ∈ register.2, product.1 < length) {values : Array R} (sized : values.size = length) :
    fillRegister registers values register =
      ((averages registers register.1 register.2).mapError VectorError.evaluation).map (filled values) := by
  rw [averages_eq, fillRegister]
  cases measuredRows registers register.1 with
  | error error => rfl
  | ok rows => exact fillProducts_eq inside sized

theorem foldlM_fillRegister {registers : Registers R} {tables : List (String × List (Nat × List Nat))}
    {length : Nat} (inside : ∀ register ∈ tables, ∀ product ∈ register.2, product.1 < length) {values : Array R}
    (sized : values.size = length) :
    tables.foldlM (fillRegister registers) values =
      ((tables.mapM fun register => averages registers register.1 register.2).mapError
        VectorError.evaluation).map fun written => filled values written.flatten := by
  rw [← mapM_mapError]
  exact foldlM_filled (fun register member values sized => fillRegister_eq (inside register member) sized) sized

theorem indices_of_averages {registers : Registers R} {input : ZProducts R} {written : List (List (Nat × R))}
    (ran : (input.products.entries.mapM fun register => averages registers register.1 register.2) = .ok written) :
    written.flatten.map Prod.fst = input.listing.map Prod.fst := by
  have each (register : String × List (Nat × List Nat)) (means : List (Nat × R))
      (averaged : averages registers register.1 register.2 = .ok means) :
      means.map Prod.fst = register.2.map Prod.fst := by
    rw [averages_eq] at averaged
    obtain ⟨rows, _, averaged⟩ := ok_of_bind averaged
    refine mapM_preserves (fun product mean single => ?_) averaged
    obtain ⟨value, _, same⟩ := ok_of_bind single
    cases same
    rfl
  have all := mapM_preserves each ran
  rw [List.map_flatten, all, listing, List.map_flatMap, List.flatMap]
  simp [Function.comp_def]

/-- Different indices below the number of products fit into the vector, and nothing is read outside. -/
theorem evaluateVector_eq {input : ZProducts R} (distinct : (input.listing.map Prod.fst).Nodup)
    (inside : ∀ item ∈ input.listing, item.1 < input.numberOfProducts)
    (known : ∀ output ∈ input.combinations.entries, ∀ term ∈ output.2, term.1 < input.numberOfProducts)
    (registers : Registers R) :
    input.evaluateVector registers = (input.evaluate registers).mapError VectorError.evaluation := by
  have fits : ∀ register ∈ input.products.entries, ∀ product ∈ register.2, product.1 < input.numberOfProducts :=
    fun register member product listed =>
      inside _ (List.mem_flatMap.2 ⟨register, member, List.mem_map.2 ⟨product, listed, rfl⟩⟩)
  unfold evaluateVector evaluate
  rw [foldlM_fillRegister fits Array.size_replicate]
  cases ran : input.products.entries.mapM fun register => averages registers register.1 register.2 with
  | error error => rfl
  | ok written =>
    have places : (written.flatten.map Prod.fst).Nodup := indices_of_averages ran ▸ distinct
    have outputs := mapM_ok fun output member => readOutput_filled places (known output member)
    exact congrArg (Except.map Table.mk) outputs

end CircuitRunner.ZProducts
