import Mathlib
import CircuitRunner.Proofs.ExactDistribution
import CircuitRunner.Proofs.ProductRegistry

/-! The outputs of an input that was built by calls. Each product is the surplus of even over odd rows as a share of
all rows, and nothing depends on the order in which registers, products, entries, rows or coefficients are met. -/
namespace CircuitRunner

theorem map_eq_of_rel {α β γ : Type} {alike : α → β → Prop} {first : α → γ} {second : β → γ}
    {value : Option α}
    {value' : Option β} (related : Option.Rel alike value value')
    (same : ∀ item other, alike item other → first item = second other) : value.map first = value'.map second := by
  cases related with
  | none => rfl
  | some alike => exact congrArg some (same _ _ alike)

/-- The same keys with alike values, in any order. -/
def AnyOrder {ν α β : Type} (alike : α → β → Prop) (items : List (ν × α)) (others : List (ν × β)) :
    Prop :=
  Multiset.Rel (fun (item : ν × α) (other : ν × β) => item.1 = other.1 ∧ alike item.2 other.2) items others

namespace AnyOrder
variable {ν α β γ : Type} {alike : α → β → Prop} {items : List (ν × α)} {others : List (ν × β)}

theorem left (related : AnyOrder alike items others) {item : ν × α} (member : item ∈ items) :
    ∃ other ∈ others, item.1 = other.1 ∧ alike item.2 other.2 :=
  Multiset.exists_mem_of_rel_of_mem related member

theorem flip (related : AnyOrder alike items others) {alike' : β → α → Prop}
    (flips : ∀ value value', alike value value' → alike' value' value) : AnyOrder alike' others items :=
  (Multiset.rel_flip.2 related).mono fun _ _ _ _ both => ⟨both.1.symm, flips _ _ both.2⟩

theorem right (related : AnyOrder alike items others) {other : ν × β} (member : other ∈ others) :
    ∃ item ∈ items, item.1 = other.1 ∧ alike item.2 other.2 :=
  Multiset.exists_mem_of_rel_of_mem (Multiset.rel_flip.2 related) member

/-- What is made of an item and its counterpart is the same. -/
theorem map_perm (related : AnyOrder alike items others) {first : ν × α → γ} {second : ν × β → γ}
    (same : ∀ key value value', (key, value) ∈ items → alike value value' →
      first (key, value) = second (key, value')) : (items.map first).Perm (others.map second) := by
  rw [← Multiset.coe_eq_coe, ← Multiset.map_coe, ← Multiset.map_coe, ← Multiset.rel_eq, Multiset.rel_map]
  refine related.mono ?_
  rintro ⟨key, value⟩ member ⟨key', value'⟩ - ⟨rfl, alike⟩
  exact same key value value' member alike

theorem keys_perm (related : AnyOrder alike items others) : (items.map Prod.fst).Perm (others.map Prod.fst) :=
  related.map_perm fun _ _ _ _ _ => rfl

/-- Lists that have each key once answer alike. -/
theorem lookup [BEq ν] [LawfulBEq ν] (related : AnyOrder alike items others)
    (distinct : (items.map Prod.fst).Nodup) (key : ν) :
    Option.Rel alike (items.lookup key) (others.lookup key) := by
  have keys := related.keys_perm
  by_cases listed : key ∈ items.map Prod.fst
  · obtain ⟨⟨key, value⟩, member, rfl⟩ := List.mem_map.1 listed
    obtain ⟨⟨key', value'⟩, member', rfl, same⟩ := related.left member
    rw [Table.lookup_of_mem distinct member, Table.lookup_of_mem (keys.nodup_iff.1 distinct) member']
    exact .some same
  · have missing {δ : Type} (pairs : List (ν × δ)) (absent : key ∉ pairs.map Prod.fst) :
        pairs.lookup key = none := by
      rw [List.lookup_eq_none_iff]
      intro pair member
      simpa using fun same => absent (List.mem_map.2 ⟨pair, member, same.symm⟩)
    rw [missing items listed, missing others (mt keys.mem_iff.2 listed)]
    exact .none

end AnyOrder

theorem SucceedsWith.toOption_of_not {ε α : Type} {attempt : Except ε α} {condition : Prop} {value : α}
    (succeeds : SucceedsWith attempt condition value) (never : ¬condition) : attempt.toOption = none := by
  cases attempt with
  | error error => rfl
  | ok actual => exact absurd ((succeeds actual).1 rfl).1 never

/-- Computations that succeed under the same condition give alike values, or none. -/
theorem SucceedsWith.rel_toOption {ε α β : Type} {first : Except ε α} {second : Except ε β}
    {condition condition' : Prop} {value : α} {value' : β} (succeeds : SucceedsWith first condition value)
    (succeeds' : SucceedsWith second condition' value') (equivalent : condition ↔ condition')
    {alike : α → β → Prop} (same : alike value value') : Option.Rel alike first.toOption second.toOption := by
  by_cases holds : condition
  · rw [(succeeds value).2 ⟨holds, rfl⟩, (succeeds' value').2 ⟨equivalent.1 holds, rfl⟩]
    exact .some same
  · rw [succeeds.toOption_of_not holds, succeeds'.toOption_of_not (mt equivalent.2 holds)]
    exact .none

namespace ZProducts

def setEntries (row : List Bool) (entries : List Nat) : Nat := entries.countP fun entry => row[entry]? == some true

theorem odd_eq (row : List Bool) (entries : List Nat) : odd row entries = decide (Odd (setEntries row entries)) := by
  have from_start (start : Bool) : entries.foldl (fun parity entry => parity ^^ row[entry]?.getD false) start =
      (start ^^ decide (Odd (setEntries row entries))) := by
    unfold setEntries
    induction entries generalizing start with
    | nil => simp
    | cons entry entries ih =>
      rw [List.foldl_cons, ih, List.countP_cons]
      rcases row[entry]? with _ | _ | _
      · simp
      · simp
      · simp [decide_eq_decide.2 Nat.odd_add_one, -Nat.not_odd_iff_even]
  rw [odd, from_start false, Bool.false_xor]

def evenRows (rows : List (List Bool)) (entries : List Nat) : Nat :=
  rows.countP fun row => decide (Even (setEntries row entries))

def oddRows (rows : List (List Bool)) (entries : List Nat) : Nat :=
  rows.countP fun row => decide (Odd (setEntries row entries))

theorem evenRows_add_oddRows (rows : List (List Bool)) (entries : List Nat) :
    evenRows rows entries + oddRows rows entries = rows.length := by
  rw [List.length_eq_countP_add_countP fun row => decide (Even (setEntries row entries))]
  simp only [evenRows, oddRows, decide_eq_true_eq, Nat.not_even_iff_odd]

noncomputable def parityMean (rows : List (List Bool)) (entries : List Nat) : ℝ :=
  ((evenRows rows entries : ℝ) - oddRows rows entries) / rows.length

theorem plainMean_eq (rows : List (List Bool)) (entries : List Nat) :
    plainMean rows entries = parityMean rows entries := by
  have signs : (rows.map (sign · entries)).sum = (evenRows rows entries : ℝ) - oddRows rows entries := by
    unfold evenRows oddRows
    induction rows with
    | nil => simp
    | cons row rows ih =>
      rw [List.map_cons, List.sum_cons, ih, List.countP_cons, List.countP_cons, sign, odd_eq]
      by_cases even : Even (setEntries row entries)
      · simp only [Nat.not_odd_iff_even.2 even, decide_false, Bool.false_eq_true, if_false, even, decide_true,
          if_true, Nat.cast_add, Nat.cast_one, add_zero]
        ring
      · simp only [Nat.not_even_iff_odd.1 even, decide_true, if_true, even, decide_false, Bool.false_eq_true,
          if_false, add_zero, Nat.cast_add, Nat.cast_one]
        ring
  rw [plainMean, signs, parityMean]

theorem abs_parityMean_le_one (rows : List (List Bool)) (entries : List Nat) : |parityMean rows entries| ≤ 1 := by
  have total : (evenRows rows entries : ℝ) + oddRows rows entries = rows.length := by
    exact_mod_cast evenRows_add_oddRows rows entries
  have even : (0 : ℝ) ≤ evenRows rows entries := Nat.cast_nonneg _
  have odd : (0 : ℝ) ≤ oddRows rows entries := Nat.cast_nonneg _
  rw [parityMean, ← total, abs_div, abs_of_nonneg (add_nonneg even odd)]
  refine div_le_one_of_le₀ ?_ (add_nonneg even odd)
  rw [abs_le]
  constructor <;> linarith

/-- The mean depends on which rows there are and which entries are selected, not on their order. -/
theorem parityMean_perm {rows rows' : List (List Bool)} {entries entries' : List Nat} (sameRows : rows.Perm rows')
    (sameEntries : entries.Perm entries') : parityMean rows entries = parityMean rows' entries' := by
  have set (row : List Bool) : setEntries row entries = setEntries row entries' := sameEntries.countP_eq _
  simp only [parityMean, evenRows, oddRows, set, sameRows.countP_eq, sameRows.length_eq]

variable {R : Type}

/-- The same products and outputs, with registers, products, entries, outputs and terms in any order. -/
structure Rearranged (input other : ZProducts R) : Prop where
  products : AnyOrder (AnyOrder List.Perm) input.products.entries other.products.entries
  combinations : AnyOrder List.Perm input.combinations.entries other.combinations.entries

namespace Rearranged
variable {input other : ZProducts R}

theorem listing (rearranged : Rearranged input other) :
    AnyOrder (fun product product' => product.1 = product'.1 ∧ product.2.Perm product'.2)
      input.listing other.listing := by
  unfold AnyOrder ZProducts.listing
  rw [← Multiset.coe_bind, ← Multiset.coe_bind]
  refine Multiset.rel_bind ?_ rearranged.products
  rintro ⟨readout, products⟩ ⟨readout', products'⟩ ⟨rfl, related⟩
  dsimp only
  rw [← Multiset.map_coe, ← Multiset.map_coe, Multiset.rel_map]
  exact related.mono fun product _ product' _ both => ⟨both.1, rfl, both.2⟩

theorem symm (rearranged : Rearranged input other) : Rearranged other input where
  products := rearranged.products.flip fun _ _ related => related.flip fun _ _ => List.Perm.symm
  combinations := rearranged.combinations.flip fun _ _ => List.Perm.symm

theorem covered (rearranged : Rearranged input other) {rows rows' : String → List (List Bool)}
    (sameRows : ∀ readout, (rows readout).Perm (rows' readout)) (covered : input.Covered rows) :
    other.Covered rows' := by
  intro register' member'
  obtain ⟨register, member, name, related⟩ := rearranged.products.right member'
  obtain ⟨present, inside⟩ := covered register member
  have same := sameRows register.1
  rw [← name]
  refine ⟨fun nothing => present (List.Perm.eq_nil (nothing ▸ same)), ?_⟩
  intro product' listed' row shown entry selected
  obtain ⟨product, listed, -, entries⟩ := related.right listed'
  exact inside product listed row (same.mem_iff.2 shown) entry (entries.mem_iff.2 selected)

/-- A product has the same mean under its index. -/
theorem registered? (rearranged : Rearranged input other) (distinct : (input.listing.map Prod.fst).Nodup)
    {rows rows' : String → List (List Bool)} (sameRows : ∀ readout, (rows readout).Perm (rows' readout))
    (index : Nat) :
    ((input.registered? index).map fun product => parityMean (rows product.1) product.2) =
      (other.registered? index).map fun product => parityMean (rows' product.1) product.2 := by
  refine map_eq_of_rel (rearranged.listing.lookup distinct index) ?_
  rintro ⟨readout, entries⟩ ⟨readout', entries'⟩ ⟨rfl, sameEntries⟩
  exact parityMean_perm (sameRows readout) sameEntries

theorem combine {input other : ZProducts ℝ} (rearranged : Rearranged input other)
    (distinct : (input.listing.map Prod.fst).Nodup) {rows rows' : String → List (List Bool)}
    (sameRows : ∀ readout, (rows readout).Perm (rows' readout)) :
    (input.combine fun readout => parityMean (rows readout)).entries.Perm
      (other.combine fun readout => parityMean (rows' readout)).entries := by
  refine rearranged.combinations.map_perm ?_
  intro name terms terms' _ sameTerms
  refine congrArg (Prod.mk name) ?_
  unfold combination
  rw [(sameTerms.map _).sum_eq]
  simp only [rearranged.registered? distinct sameRows]

end Rearranged

theorem after_induction (holds : ZProducts R → Prop) {input : ZProducts R} (first : holds input)
    (step : ∀ input next, holds input → Changes input next → holds next) (calls : List (Call R)) :
    holds (input.after calls) := by
  induction calls generalizing input with
  | nil => exact first
  | cons call calls ih => exact ih (step _ _ first (call.changes_left input))

/-- A register is listed once it has a product. -/
theorem products_nonempty (numberOfQubits : Nat) (calls : List (Call R)) :
    ∀ register ∈ ((empty numberOfQubits).after calls).products.entries, register.2 ≠ [] := by
  refine after_induction (fun input => ∀ register ∈ input.products.entries, register.2 ≠ []) ?_ ?_ calls
  · intro register member
    cases member
  · intro input next nonempty changes
    cases changes with
    | nothing => exact nonempty
    | product =>
      intro register member
      rcases Table.mem_insert member with old | rfl
      · exact nonempty register old
      · simp
    | combination => exact nonempty

theorem covered_iff {input : ZProducts R} (nonempty : ∀ register ∈ input.products.entries, register.2 ≠ [])
    {registers : Registers R} : input.Covered registers.rows ↔
      ∀ index readout entries, (index, readout, entries) ∈ input.listing →
        ∃ rows, registers.bits.get? readout = some rows ∧ rows ≠ [] ∧
          ∀ row ∈ rows, ∀ entry ∈ entries, entry < row.length := by
  have measured (readout : String) (present : registers.rows readout ≠ []) :
      registers.bits.get? readout = some (registers.rows readout) := by
    unfold Registers.rows at present ⊢
    cases found : registers.bits.get? readout with
    | none => simp [found] at present
    | some rows => rfl
  constructor
  · intro covered index readout entries listed
    obtain ⟨register, member, inRegister⟩ := List.mem_flatMap.1 listed
    obtain ⟨product, own, same⟩ := List.mem_map.1 inRegister
    cases same
    obtain ⟨present, inside⟩ := covered register member
    exact ⟨_, measured _ present, present, inside product own⟩
  · intro each register member
    have listed (product : Nat × List Nat) (own : product ∈ register.2) :
        (product.1, register.1, product.2) ∈ input.listing :=
      List.mem_flatMap.2 ⟨register, member, List.mem_map.2 ⟨product, own, rfl⟩⟩
    obtain ⟨product, own⟩ := List.exists_mem_of_ne_nil _ (nonempty register member)
    obtain ⟨rows, found, present, -⟩ := each _ _ _ (listed product own)
    have rowsAre : registers.rows register.1 = rows := by rw [Registers.rows, found, Option.getD_some]
    refine ⟨rowsAre ▸ present, fun product own => ?_⟩
    obtain ⟨rows', found', -, inside⟩ := each _ _ _ (listed product own)
    rw [rowsAre, ← Option.some.inj (found'.symm.trans found)]
    exact inside

section Exact
variable [Literal ℝ] (counts : ∀ number : Int, (Literal.ofInt number : ℝ) = number)
include counts

theorem evaluate_parityMean (input : ZProducts ℝ) (registers : Registers ℝ) :
    SucceedsWith (input.evaluate registers) (input.Covered registers.rows)
      (input.combine fun readout => parityMean (registers.rows readout)) := by
  have means : (fun readout => plainMean (registers.rows readout)) = fun readout =>
      parityMean (registers.rows readout) := by
    funext readout entries
    exact plainMean_eq _ _
  exact means ▸ evaluate_succeeds counts input registers

/-- Evaluation succeeds if every register with a product has rows and these have every selected entry. Each output
is then the sum of its coefficients, each times the surplus of even over odd rows of its product as a share of all
rows, a number between minus one and one. No order matters. -/
theorem evaluate_built (numberOfQubits : Nat) (calls : List (Call ℝ)) (registers : Registers ℝ) :
    let input := (empty numberOfQubits).after calls
    ((∃ values, input.evaluate registers = .ok values) ↔
      ∀ index readout entries, (index, readout, entries) ∈ input.listing →
        ∃ rows, registers.bits.get? readout = some rows ∧ rows ≠ [] ∧
          ∀ row ∈ rows, ∀ entry ∈ entries, entry < row.length) ∧
    (∀ values, input.evaluate registers = .ok values →
      values = input.combine fun readout => parityMean (registers.rows readout)) ∧
    (∀ output ∈ input.combinations.entries, ∀ term ∈ output.2,
      ∃ readout entries, (term.1, readout, entries) ∈ input.listing) ∧
    (∀ index readout entries, (index, readout, entries) ∈ input.listing →
      input.registered? index = some (readout, entries) ∧ |parityMean (registers.rows readout) entries| ≤ 1) ∧
    ∀ other registers', Rearranged input other →
      (∀ readout, (registers.rows readout).Perm (registers'.rows readout)) →
      Option.Rel (fun values values' => values.entries.Perm values'.entries)
        (input.evaluate registers).toOption (other.evaluate registers').toOption := by
  intro input
  have disciplined : input.Disciplined numberOfQubits := ((disciplined_empty numberOfQubits).after calls).1
  have succeeds := evaluate_parityMean counts input registers
  refine ⟨?_, ?_, ?_, ?_, ?_⟩
  · rw [← covered_iff (products_nonempty numberOfQubits calls)]
    exact ⟨fun ⟨values, ok⟩ => ((succeeds values).1 ok).1,
      fun covered => ⟨_, (succeeds _).2 ⟨covered, rfl⟩⟩⟩
  · intro values ok
    exact ((succeeds values).1 ok).2.symm
  · intro output member term ofOutput
    obtain ⟨⟨index, readout, entries⟩, listed, rfl⟩ :=
      List.mem_map.1 (disciplined.registered output member term ofOutput)
    exact ⟨readout, entries, listed⟩
  · intro index readout entries listed
    exact ⟨disciplined.registered?_of_mem listed, abs_parityMean_le_one _ _⟩
  · intro other registers' rearranged sameRows
    refine succeeds.rel_toOption (evaluate_parityMean counts other registers') ?_
      (rearranged.combine disciplined.nodup_indices sameRows)
    exact ⟨rearranged.covered sameRows, rearranged.symm.covered fun readout => (sameRows readout).symm⟩

end Exact

def fourRows : List (List Bool) := [[false, false], [true, true], [true, false], [false, false]]

/-- The first bit is set in half of the rows, and both agree in three of four. -/
theorem evaluate_built_correlated :
    letI := Backend.exactLiteral
    ((empty 2).after [.product "ro" [0], .product "ro" [0, 1], .product "ro" [], .product "ro" [0],
      .combination "energy" [(0, 1 / 2), (1, 2), (2, 1)]]).evaluate ⟨⟨[("ro", fourRows)]⟩, .empty, .empty⟩ =
        .ok ⟨[("energy", (2 : ℝ))]⟩ := by
  let literal := Backend.exactLiteral
  let registers : Registers ℝ := ⟨⟨[("ro", fourRows)]⟩, .empty, .empty⟩
  let calls : List (Call ℝ) := [.product "ro" [0], .product "ro" [0, 1], .product "ro" [], .product "ro" [0],
    .combination "energy" [(0, 1 / 2), (1, 2), (2, 1)]]
  have built : (empty 2).after calls = ⟨2, ⟨[("ro", [(0, [0]), (1, [0, 1]), (2, [])])]⟩, 3,
      ⟨[("energy", [(0, 1 / 2), (1, 2), (2, 1)])]⟩⟩ := rfl
  have covered : ∀ index readout entries, (index, readout, entries) ∈ ((empty 2).after calls).listing →
      ∃ rows, registers.bits.get? readout = some rows ∧ rows ≠ [] ∧
        ∀ row ∈ rows, ∀ entry ∈ entries, entry < row.length := by
    rw [built]
    intro index readout entries listed
    simp only [listing, List.flatMap_singleton, List.map_cons, List.map_nil, List.mem_cons, Prod.mk.injEq,
      List.not_mem_nil, or_false] at listed
    rcases listed with ⟨-, rfl, rfl⟩ | ⟨-, rfl, rfl⟩ | ⟨-, rfl, rfl⟩
    · exact ⟨fourRows, rfl, by decide, by decide⟩
    · exact ⟨fourRows, rfl, by decide, by decide⟩
    · exact ⟨fourRows, rfl, by decide, by decide⟩
  have mean (entries : List Nat) (even odd : Nat) (evenIs : evenRows fourRows entries = even)
      (oddIs : oddRows fourRows entries = odd) : parityMean (registers.rows "ro") entries = (even - odd) / 4 := by
    rw [show registers.rows "ro" = fourRows from rfl, parityMean, evenIs, oddIs]
    norm_num [fourRows]
  obtain ⟨succeeds, values, -⟩ := evaluate_built (fun _ => rfl) 2 calls registers
  obtain ⟨table, ok⟩ := succeeds.2 covered
  have energy : 1 / 2 * parityMean (registers.rows "ro") [0] + (2 * parityMean (registers.rows "ro") [0, 1] +
      (1 * parityMean (registers.rows "ro") [] + 0)) = 2 := by
    rw [mean [0] 2 2 (by decide) (by decide), mean [0, 1] 3 1 (by decide) (by decide),
      mean [] 4 0 (by decide) (by decide)]
    norm_num
  rw [values table ok, built] at ok
  exact ok.trans (congrArg (fun value => Except.ok (Table.mk [("energy", value)])) energy)

end ZProducts
end CircuitRunner
