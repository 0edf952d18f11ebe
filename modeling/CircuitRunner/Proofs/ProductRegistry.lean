import Mathlib
import CircuitRunner.Proofs.ProductAverage
import CircuitRunner.Proofs.TableLookup
import CircuitRunner.Proofs.VectorEvaluation

/-! The products and outputs of an input through any sequence of calls. The calls change the input in place,
with a list opened for a new readout register before it is searched, and a call that fails shows what it left
behind. `Changes` says once what a call can do; the discipline of the indices and the growth of the listing
follow from it. -/
namespace CircuitRunner.ZProducts
variable {R : Type} {input next : ZProducts R} {readout : String} {entries : List Nat}

def known (input : ZProducts R) (readout : String) : List (Nat × List Nat) :=
  (input.products.get? readout).getD []

def opened (input : ZProducts R) (readout : String) : ZProducts R :=
  if input.products.contains readout then input
  else { input with products := input.products.insert readout [] }

theorem known_opened (input : ZProducts R) (readout : String) :
    (input.opened readout).known readout = input.known readout := by
  unfold opened
  split
  · rfl
  · rename_i unknown
    have missing : input.products.get? readout = none := by simpa [Table.contains] using unknown
    simp [known, missing, Table.get?_insert]

theorem opened_of_known {product : Nat × List Nat} (member : product ∈ input.known readout) :
    input.opened readout = input := by
  rw [opened, if_pos]
  rw [Table.contains, Option.isSome_iff_ne_none]
  intro missing
  rw [known, missing] at member
  cases member

def extended (input : ZProducts R) (readout : String) (entries : List Nat) : ZProducts R :=
  { input with
    products := input.products.insert readout (input.known readout ++ [(input.numberOfProducts, entries)])
    numberOfProducts := input.numberOfProducts + 1 }

theorem addProduct_eq (input : ZProducts R) (readout : String) (entries : List Nat) :
    input.addProduct readout entries =
      match entries.find? (input.numberOfQubits ≤ ·) with
      | some entry => .error (.entryExceedsQubits entry input.numberOfQubits)
      | none =>
        match (input.known readout).find? (·.2 == entries) with
        | some product => .ok (product.1, input)
        | none => .ok (input.numberOfProducts, input.extended readout entries) := rfl

theorem numberOfProducts_opened (input : ZProducts R) (readout : String) :
    (input.opened readout).numberOfProducts = input.numberOfProducts := by
  unfold opened
  split <;> rfl

theorem extended_opened (input : ZProducts R) (readout : String) (entries : List Nat) :
    (input.opened readout).extended readout entries = input.extended readout entries := by
  rw [extended, known_opened]
  unfold opened
  split
  · rfl
  · simp [extended, Table.insert_insert]

def combined (input : ZProducts R) (name : String) (coefficients : List (Nat × R)) : ZProducts R :=
  { input with combinations := input.combinations.insert name (distinctCoefficients coefficients) }

def registerProduct (readout : String) (entries : List Nat) : EStateM EvaluationError (ZProducts R) Nat := do
  let numberOfQubits := (← get).numberOfQubits
  match entries.find? (numberOfQubits ≤ ·) with
  | some entry => throw (.entryExceedsQubits entry numberOfQubits)
  | none =>
    modify (·.opened readout)
    let products := (← get).known readout
    match products.find? (·.2 == entries) with
    | some product => return product.1
    | none =>
      let index := (← get).numberOfProducts
      modify fun input => { input with products := input.products.insert readout (products ++ [(index, entries)]) }
      modify fun input => { input with numberOfProducts := input.numberOfProducts + 1 }
      return index

def registerCombination (name : String) (coefficients : List (Nat × R)) :
    EStateM EvaluationError (ZProducts R) Unit := do
  match coefficients.find? ((← get).numberOfProducts ≤ ·.1) with
  | some entry => throw (.productNotRegistered entry.1)
  | none => modify (·.combined name coefficients)

def settled {α : Type} (input : ZProducts R) :
    Except EvaluationError (α × ZProducts R) → EStateM.Result EvaluationError (ZProducts R) α
  | .ok (answer, next) => .ok answer next
  | .error error => .error error input

theorem registerProduct_eq (input : ZProducts R) (readout : String) (entries : List Nat) :
    (registerProduct readout entries).run input = input.settled (input.addProduct readout entries) := by
  rw [addProduct_eq]
  unfold registerProduct
  cases outside : entries.find? (input.numberOfQubits ≤ ·) with
  | some entry =>
    simp only [outside, EStateM.run_bind, EStateM.run_get]
    rfl
  | none =>
    simp only [outside, EStateM.run_bind, EStateM.run_get, EStateM.run_modify]
    cases found : (input.known readout).find? (·.2 == entries) with
    | some product =>
      -- A list that has products was there before, so nothing was opened.
      rw [opened_of_known (List.mem_of_find?_eq_some found), found]
      rfl
    | none =>
      rw [known_opened, found]
      calc
        _ = .ok (input.opened readout).numberOfProducts ((input.opened readout).extended readout entries) := by
          rw [extended, known_opened]
          rfl
        _ = _ := by rw [extended_opened, numberOfProducts_opened, settled]

theorem registerCombination_eq (input : ZProducts R) (name : String) (coefficients : List (Nat × R)) :
    (registerCombination name coefficients).run input =
      input.settled ((input.addCombination name coefficients).map fun next => ((), next)) := by
  unfold registerCombination addCombination
  cases outside : coefficients.find? (input.numberOfProducts ≤ ·.1) <;>
    simp [outside, settled, Except.map, combined]

inductive Changes (input : ZProducts R) : ZProducts R → Prop
  | nothing : Changes input input
  | product {readout : String} {entries : List Nat} (inside : ∀ entry ∈ entries, entry < input.numberOfQubits)
      (fresh : ∀ product ∈ input.known readout, product.2 ≠ entries) :
      Changes input (input.extended readout entries)
  | combination {name : String} {coefficients : List (Nat × R)}
      (registered : ∀ term ∈ coefficients, term.1 < input.numberOfProducts) :
      Changes input (input.combined name coefficients)

theorem addProduct_ok {index : Nat} (registered : input.addProduct readout entries = .ok (index, next)) :
    Changes input next ∧ (index, entries) ∈ next.known readout := by
  rw [addProduct_eq] at registered
  split at registered
  · cases registered
  rename_i inside
  split at registered
  · rename_i product found
    cases registered
    obtain rfl : product.2 = entries := by simpa using List.find?_some found
    exact ⟨.nothing, List.mem_of_find?_eq_some found⟩
  · rename_i fresh
    cases registered
    refine ⟨.product (by simpa using inside) (by simpa using fresh), ?_⟩
    simp [known, extended, Table.get?_insert]

theorem addCombination_ok {name : String} {coefficients : List (Nat × R)}
    (registered : input.addCombination name coefficients = .ok next) : Changes input next := by
  unfold addCombination at registered
  split at registered
  · cases registered
  · rename_i inside
    cases registered
    exact .combination (by simpa using inside)

theorem mem_listing (distinct : input.products.Distinct) {index : Nat} :
    (index, readout, entries) ∈ input.listing ↔ (index, entries) ∈ input.known readout := by
  constructor
  · intro listed
    obtain ⟨register, member, inRegister⟩ := List.mem_flatMap.1 listed
    obtain ⟨product, found, same⟩ := List.mem_map.1 inRegister
    cases same
    have own : input.products.get? register.1 = some register.2 := Table.lookup_of_mem distinct member
    rwa [known, own]
  · intro found
    rw [known] at found
    cases own : input.products.get? readout with
    | none => simp [own] at found
    | some products =>
      obtain ⟨before, after, split, -⟩ := List.lookup_eq_some_iff.1 own
      rw [own] at found
      exact List.mem_flatMap.2 ⟨(readout, products), by simp [split], List.mem_map.2 ⟨_, found, rfl⟩⟩

theorem listing_extended (distinct : input.products.Distinct) (readout : String) (entries : List Nat) :
    (input.extended readout entries).listing.Perm
      (input.listing ++ [(input.numberOfProducts, readout, entries)]) := by
  cases own : input.products.get? readout with
  | none =>
    have unknown : input.products.contains readout = false := by rw [Table.contains, own, Option.isSome_none]
    simp [listing, extended, known, own, Table.insert, unknown]
  | some products =>
    obtain ⟨before, after, split, replaced⟩ := Table.entries_insert_of_get? distinct own
    -- Products of later registers stand behind the new one.
    simpa [listing, extended, known, own, replaced, split, List.perm_append_left_iff] using
      (List.perm_append_singleton _ _).symm

theorem listing_subset_extended (distinct : input.products.Distinct) (readout : String) (entries : List Nat) :
    input.listing ⊆ (input.extended readout entries).listing :=
  fun _ member => (listing_extended distinct readout entries).mem_iff.2 (List.mem_append_left _ member)

/-- The discipline of an input for a number of qubits: the indices count the products, no pair of a readout
register and entries has two of them, entries are qubits, and outputs combine registered products. -/
structure Disciplined (numberOfQubits : Nat) (input : ZProducts R) : Prop where
  qubits : input.numberOfQubits = numberOfQubits
  readouts : input.products.Distinct
  indices : (input.listing.map Prod.fst).Perm (List.range input.numberOfProducts)
  pairs : (input.listing.map Prod.snd).Nodup
  inside : ∀ item ∈ input.listing, ∀ entry ∈ item.2.2, entry < numberOfQubits
  registered : ∀ output ∈ input.combinations.entries, ∀ term ∈ output.2, term.1 ∈ input.listing.map Prod.fst

variable {numberOfQubits : Nat}

theorem disciplined_empty (numberOfQubits : Nat) :
    (empty numberOfQubits : ZProducts R).Disciplined numberOfQubits where
  qubits := rfl
  readouts := List.nodup_nil
  indices := .refl []
  pairs := List.nodup_nil
  inside := by simp [empty, listing, Table.empty]
  registered := by simp [empty, Table.empty]

theorem distinctCoefficients_subset (coefficients : List (Nat × R)) :
    distinctCoefficients coefficients ⊆ coefficients := by
  suffices kept : ∀ start : List (Nat × R),
      coefficients.foldl (fun kept entry => kept.filter (·.1 != entry.1) ++ [entry]) start ⊆ start ++ coefficients by
    exact kept []
  induction coefficients with
  | nil => simp
  | cons entry rest ih =>
    intro start term member
    rcases List.mem_append.1 (ih _ member) with early | late
    · rcases List.mem_append.1 early with before | own
      · exact List.mem_append_left _ (List.mem_of_mem_filter before)
      · exact List.mem_append_right _ (List.mem_cons.2 (.inl (List.mem_singleton.1 own)))
    · exact List.mem_append_right _ (List.mem_cons_of_mem _ late)

namespace Disciplined

theorem nodup_indices (disciplined : input.Disciplined numberOfQubits) : (input.listing.map Prod.fst).Nodup :=
  disciplined.indices.nodup_iff.2 List.nodup_range

theorem mem_indices (disciplined : input.Disciplined numberOfQubits) {index : Nat} :
    index ∈ input.listing.map Prod.fst ↔ index < input.numberOfProducts := by
  rw [disciplined.indices.mem_iff, List.mem_range]

theorem extended (disciplined : input.Disciplined numberOfQubits)
    (inside : ∀ entry ∈ entries, entry < input.numberOfQubits)
    (fresh : ∀ product ∈ input.known readout, product.2 ≠ entries) :
    (input.extended readout entries).Disciplined numberOfQubits := by
  have listed := listing_extended disciplined.readouts readout entries
  refine ⟨disciplined.qubits, Table.distinct_insert disciplined.readouts _ _, ?_, ?_, ?_, ?_⟩
  · refine (listed.map Prod.fst).trans ?_
    rw [List.map_append, List.map_singleton]
    exact (disciplined.indices.append_right _).trans (.of_eq List.range_succ.symm)
  · rw [(listed.map Prod.snd).nodup_iff, List.map_append, List.map_singleton, ← List.concat_eq_append]
    refine disciplined.pairs.concat fun again => ?_
    obtain ⟨⟨index, readout, entries⟩, member, same⟩ := List.mem_map.1 again
    cases same
    exact fresh _ ((mem_listing disciplined.readouts).1 member) rfl
  · intro item member
    rcases List.mem_append.1 (listed.mem_iff.1 member) with old | new
    · exact disciplined.inside item old
    · cases List.mem_singleton.1 new
      exact disciplined.qubits ▸ inside
  · intro output member term ofOutput
    exact List.map_subset _ (listing_subset_extended disciplined.readouts readout entries)
      (disciplined.registered output member term ofOutput)

theorem combined (disciplined : input.Disciplined numberOfQubits) {name : String} {coefficients : List (Nat × R)}
    (registered : ∀ term ∈ coefficients, term.1 < input.numberOfProducts) :
    (input.combined name coefficients).Disciplined numberOfQubits := by
  refine { disciplined with registered := fun output member term ofOutput => ?_ }
  rcases Table.mem_insert member with old | rfl
  · exact disciplined.registered output old term ofOutput
  · exact disciplined.mem_indices.2 (registered term (distinctCoefficients_subset coefficients ofOutput))

theorem changed (disciplined : input.Disciplined numberOfQubits) (changes : Changes input next) :
    next.Disciplined numberOfQubits := by
  cases changes with
  | nothing => exact disciplined
  | product inside fresh => exact disciplined.extended inside fresh
  | combination registered => exact disciplined.combined registered

/-- A change adds to the listing and takes nothing away. -/
theorem listing_changed (disciplined : input.Disciplined numberOfQubits) (changes : Changes input next) :
    input.listing ⊆ next.listing := by
  cases changes with
  | nothing => exact List.Subset.refl _
  | product => exact listing_subset_extended disciplined.readouts _ _
  | combination => exact List.Subset.refl _

theorem registered?_of_mem (disciplined : input.Disciplined numberOfQubits) {index : Nat}
    (member : (index, readout, entries) ∈ input.listing) : input.registered? index = some (readout, entries) :=
  Table.lookup_of_mem disciplined.nodup_indices member

/-- A product that is there is found under its index, and nothing changes. -/
theorem addProduct_of_mem (disciplined : input.Disciplined numberOfQubits) {index : Nat}
    (member : (index, readout, entries) ∈ input.listing) :
    input.addProduct readout entries = .ok (index, input) := by
  have inside : entries.find? (input.numberOfQubits ≤ ·) = none := by
    simpa [disciplined.qubits] using disciplined.inside _ member
  have own := (mem_listing disciplined.readouts).1 member
  rw [addProduct_eq, inside]
  cases found : (input.known readout).find? (·.2 == entries) with
  | none => simpa using List.find?_eq_none.1 found _ own
  | some product =>
    obtain rfl : product.2 = entries := by simpa using List.find?_some found
    have listed := (mem_listing disciplined.readouts).2 (List.mem_of_find?_eq_some found)
    have same := List.inj_on_of_nodup_map disciplined.pairs listed member rfl
    exact congrArg (fun item => Except.ok (item.1, input)) same

end Disciplined

inductive Call (R : Type) where
  | product (readout : String) (entries : List Nat)
  | combination (name : String) (coefficients : List (Nat × R))

def Call.perform : Call R → EStateM EvaluationError (ZProducts R) (Option Nat)
  | .product readout entries => some <$> registerProduct readout entries
  | .combination name coefficients => (fun _ => none) <$> registerCombination name coefficients

def Call.left (input : ZProducts R) (call : Call R) : ZProducts R :=
  match call.perform.run input with
  | .ok _ next => next
  | .error _ next => next

def after (input : ZProducts R) (calls : List (Call R)) : ZProducts R := calls.foldl Call.left input

theorem Call.perform_cases (call : Call R) (input : ZProducts R) :
    (∃ answer next, call.perform.run input = .ok answer next ∧ Changes input next) ∨
      ∃ error, call.perform.run input = .error error input := by
  cases call with
  | product readout entries =>
    rw [perform, EStateM.run_map, registerProduct_eq]
    cases outcome : input.addProduct readout entries with
    | ok result => exact .inl ⟨_, _, rfl, (addProduct_ok outcome).1⟩
    | error error => exact .inr ⟨error, rfl⟩
  | combination name coefficients =>
    rw [perform, EStateM.run_map, registerCombination_eq]
    cases outcome : input.addCombination name coefficients with
    | ok next => exact .inl ⟨_, _, rfl, addCombination_ok outcome⟩
    | error error => exact .inr ⟨error, rfl⟩

theorem Call.changes_left (call : Call R) (input : ZProducts R) : Changes input (call.left input) := by
  rcases call.perform_cases input with ⟨answer, next, run, changes⟩ | ⟨error, run⟩
  · rwa [left, run]
  · rw [left, run]
    exact .nothing

theorem Disciplined.after (disciplined : input.Disciplined numberOfQubits) (calls : List (Call R)) :
    (input.after calls).Disciplined numberOfQubits ∧ input.listing ⊆ (input.after calls).listing := by
  induction calls generalizing input with
  | nil => exact ⟨disciplined, List.Subset.refl _⟩
  | cons call calls ih =>
    have changes := call.changes_left input
    obtain ⟨kept, grown⟩ := ih (disciplined.changed changes)
    exact ⟨kept, List.Subset.trans (disciplined.listing_changed changes) grown⟩

variable [Scalar R] [Literal R]

theorem Disciplined.evaluateVector_eq (disciplined : input.Disciplined numberOfQubits) (registers : Registers R) :
    input.evaluateVector registers = (input.evaluate registers).mapError VectorError.evaluation := by
  apply ZProducts.evaluateVector_eq
  · exact disciplined.nodup_indices
  · exact fun item member => disciplined.mem_indices.1 (List.mem_map_of_mem member)
  · exact fun output member term ofOutput =>
      disciplined.mem_indices.1 (disciplined.registered output member term ofOutput)

/-- Whatever calls an input has seen, its indices are in order, a refused call leaves it as it is, an index
keeps its product through all later calls, and no access of an evaluation is outside the vector of averages. -/
theorem calls_disciplined (numberOfQubits : Nat) (calls : List (Call R)) :
    let input := (empty numberOfQubits).after calls
    input.Disciplined numberOfQubits ∧
      (∀ readout entries,
        (registerProduct readout entries).run input = input.settled (input.addProduct readout entries)) ∧
      (∀ name coefficients, (registerCombination name coefficients).run input =
        input.settled ((input.addCombination name coefficients).map fun next => ((), next))) ∧
      (∀ call : Call R, ∀ error next, call.perform.run input = .error error next → next = input) ∧
      (∀ readout entries index next, input.addProduct readout entries = .ok (index, next) → ∀ more,
        (next.after more).registered? index = some (readout, entries) ∧
          (next.after more).addProduct readout entries = .ok (index, next.after more)) ∧
      ∀ registers, input.evaluateVector registers = (input.evaluate registers).mapError VectorError.evaluation := by
  intro input
  have disciplined : input.Disciplined numberOfQubits := ((disciplined_empty numberOfQubits).after calls).1
  refine ⟨disciplined, registerProduct_eq input, registerCombination_eq input, ?_, ?_,
    disciplined.evaluateVector_eq⟩
  · intro call error next failed
    rcases call.perform_cases input with ⟨answer, next, run, -⟩ | ⟨error, run⟩ <;> cases run.symm.trans failed
    rfl
  · intro readout entries index next registered more
    obtain ⟨changes, found⟩ := addProduct_ok registered
    have disciplinedNext := disciplined.changed changes
    obtain ⟨kept, grown⟩ := disciplinedNext.after more
    have member := grown ((mem_listing disciplinedNext.readouts).2 found)
    exact ⟨kept.registered?_of_mem member, kept.addProduct_of_mem member⟩

end CircuitRunner.ZProducts
