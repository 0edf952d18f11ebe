import CircuitRunner.Basis
import Mathlib.Data.List.Induction

/-! Bits of basis indices. Operands may repeat: replaced bits are then joined, and bits that are
read off an index and put back leave it as it is. -/
namespace CircuitRunner.Basis

theorem testBit_flip (qubit index bit : Nat) :
    (flip qubit index).testBit bit = (index.testBit bit ^^ decide (qubit = bit)) := by
  rw [flip, Nat.testBit_xor, Nat.pow_eq, Nat.testBit_two_pow]

theorem testBit_clear (qubit index bit : Nat) :
    (clear qubit index).testBit bit = (index.testBit bit && decide (qubit ≠ bit)) := by
  unfold clear
  split
  · rename_i set
    rw [testBit_flip]
    by_cases same : qubit = bit
    · subst same
      simp [set]
    · simp [same]
  · rename_i unset
    by_cases same : qubit = bit
    · subst same
      simp [unset]
    · simp [same]

theorem testBit_clearAll (qubits : List Nat) (index bit : Nat) :
    (clearAll qubits index).testBit bit = (index.testBit bit && decide (bit ∉ qubits)) := by
  induction qubits generalizing index with
  | nil => simp [clearAll]
  | cons qubit rest ih =>
    change (clearAll rest (clear qubit index)).testBit bit = _
    rw [ih, testBit_clear]
    by_cases same : qubit = bit
    · simp [same]
    · simp [same, Ne.symm same]

theorem gather_concat (qubits : List Nat) (qubit index : Nat) :
    gather (qubits ++ [qubit]) index = 2 * gather qubits index + (index.testBit qubit).toNat := by
  simp [gather]

theorem deal_concat (qubits : List Nat) (qubit number : Nat) :
    deal (qubits ++ [qubit]) number =
      deal qubits (number / 2) ||| (if number.testBit 0 then Nat.pow 2 qubit else 0) := by
  induction qubits with
  | nil => simp [deal]
  | cons first rest ih =>
    rw [List.cons_append, deal, deal, ih, List.length_append, List.length_singleton,
      Nat.testBit_succ, Nat.or_assoc]

theorem size_succ (count : Nat) : size (count + 1) = 2 * size count := Nat.pow_succ'

theorem half_concat (number : Nat) (last : Bool) : (2 * number + last.toNat) / 2 = number := by
  have bound : last.toNat < 2 := Bool.toNat_lt last
  omega

theorem lowest_concat (number : Nat) (last : Bool) : (2 * number + last.toNat).testBit 0 = last := by
  rw [Nat.testBit_zero]
  cases last <;> simp

theorem exists_concat (number : Nat) : ∃ half, ∃ last : Bool, number = 2 * half + last.toNat := by
  rcases Nat.mod_two_eq_zero_or_one number with even | odd
  · exact ⟨number / 2, false, by rw [Bool.toNat_false]; omega⟩
  · exact ⟨number / 2, true, by rw [Bool.toNat_true]; omega⟩

theorem testBit_deal_cons (qubit : Nat) (rest : List Nat) (number bit : Nat) :
    (deal (qubit :: rest) number).testBit bit =
      (number.testBit rest.length && decide (qubit = bit) || (deal rest number).testBit bit) := by
  rw [deal, Nat.testBit_or]
  cases number.testBit rest.length with
  | false => simp
  | true => rw [if_pos rfl, Nat.pow_eq, Nat.testBit_two_pow, Bool.true_and]

theorem gather_lt (qubits : List Nat) (index : Nat) : gather qubits index < size qubits.length := by
  induction qubits using List.reverseRecOn with
  | nil => simp [gather, size]
  | append_singleton qubits qubit ih =>
    rw [gather_concat, List.length_append, List.length_singleton, size_succ]
    have bound : (index.testBit qubit).toNat < 2 := Bool.toNat_lt _
    omega

/-- The number that listed bits form is the largest one when all of them are set. -/
theorem gather_full (qubits : List Nat) (index : Nat) :
    gather qubits index + 1 = size qubits.length ↔ ∀ qubit ∈ qubits, index.testBit qubit = true := by
  induction qubits using List.reverseRecOn with
  | nil => simp [gather, size]
  | append_singleton qubits qubit ih =>
    have bound := gather_lt qubits index
    rw [gather_concat, List.length_append, List.length_singleton, size_succ]
    simp only [List.mem_append, List.mem_singleton, or_imp, forall_and, forall_eq, ← ih]
    cases index.testBit qubit <;> simp <;> omega

theorem testBit_deal_concat (qubits : List Nat) (qubit number : Nat) (last : Bool) (bit : Nat) :
    (deal (qubits ++ [qubit]) (2 * number + last.toNat)).testBit bit =
      ((deal qubits number).testBit bit || (last && decide (qubit = bit))) := by
  rw [deal_concat, half_concat, lowest_concat, Nat.testBit_or]
  cases last with
  | false => simp
  | true => rw [if_pos rfl, Nat.pow_eq, Nat.testBit_two_pow, Bool.true_and]

theorem testBit_deal_gather (qubits : List Nat) (index bit : Nat) :
    (deal qubits (gather qubits index)).testBit bit = (decide (bit ∈ qubits) && index.testBit bit) := by
  induction qubits using List.reverseRecOn with
  | nil => simp [deal]
  | append_singleton qubits qubit ih =>
    rw [gather_concat, testBit_deal_concat, ih]
    by_cases same : qubit = bit
    · subst same
      cases index.testBit qubit <;> simp
    · simp [same, Ne.symm same]

/-- Bits that are read off an index and put back change nothing. -/
theorem scatter_gather (qubits : List Nat) (index : Nat) :
    scatter qubits (gather qubits index) index = index := by
  apply Nat.eq_of_testBit_eq
  intro bit
  rw [scatter, Nat.testBit_or, testBit_clearAll, testBit_deal_gather]
  by_cases listed : bit ∈ qubits <;> simp [listed]

/-- Replacing the last of the listed bits while the others keep their values. A bit that is listed
before as well stays set if it was. -/
theorem testBit_scatter_concat (qubits : List Nat) (qubit index : Nat) (last : Bool) (bit : Nat) :
    (scatter (qubits ++ [qubit]) (2 * gather qubits index + last.toNat) index).testBit bit =
      if qubit = bit then (decide (qubit ∈ qubits) && index.testBit bit || last)
      else index.testBit bit := by
  rw [scatter, Nat.testBit_or, testBit_clearAll, testBit_deal_concat, testBit_deal_gather]
  by_cases same : qubit = bit
  · subst same
    simp
  · by_cases listed : bit ∈ qubits <;> simp [same, Ne.symm same, listed]

/-- Inverting the target of a set of controls that are all one. -/
theorem scatter_invert (controls : List Nat) (target index : Nat)
    (set : ∀ control ∈ controls, index.testBit control = true) :
    scatter (controls ++ [target]) (2 * gather controls index + (!index.testBit target).toNat) index =
      if target ∈ controls then index else flip target index := by
  apply Nat.eq_of_testBit_eq
  intro bit
  rw [testBit_scatter_concat]
  by_cases same : target = bit
  · subst same
    by_cases listed : target ∈ controls
    · simp [listed, set target listed]
    · simp [listed, testBit_flip]
  · by_cases listed : target ∈ controls <;> simp [same, listed, testBit_flip]

def invertLowest (others number : Nat) : Nat :=
  if number / 2 + 1 = size others then number + 1 - 2 * (number % 2) else number

theorem invertLowest_lt {others number : Nat} (inside : number < size (others + 1)) :
    invertLowest others number < size (others + 1) := by
  rw [size_succ] at inside ⊢
  unfold invertLowest
  split <;> omega

theorem invertLowest_full {others : Nat} (number : Nat) (lowest : Bool)
    (full : number + 1 = size others) :
    invertLowest others (2 * number + lowest.toNat) = 2 * number + (!lowest).toNat := by
  cases lowest <;> simp only [invertLowest, Bool.toNat_true, Bool.toNat_false, Bool.not_true,
    Bool.not_false] <;> split <;> omega

theorem invertLowest_rest {others : Nat} (number : Nat) (lowest : Bool)
    (rest : number + 1 ≠ size others) :
    invertLowest others (2 * number + lowest.toNat) = 2 * number + lowest.toNat := by
  have bound : lowest.toNat < 2 := Bool.toNat_lt lowest
  rw [invertLowest, if_neg (by omega)]

theorem all_clear (controls : List Nat) (target index : Nat) :
    controls.all (clear target index).testBit = true ↔
      (∀ control ∈ controls, index.testBit control = true) ∧ target ∉ controls := by
  simp only [List.all_eq_true, testBit_clear, Bool.and_eq_true, decide_eq_true_eq]
  constructor
  · intro set
    exact ⟨fun control listed => (set control listed).1, fun listed => (set target listed).2 rfl⟩
  · rintro ⟨set, apart⟩ control listed
    exact ⟨set control listed, fun same => apart (same ▸ listed)⟩

theorem scatter_controlled (controls : List Nat) (target index : Nat) :
    scatter (controls ++ [target])
        (invertLowest controls.length (gather (controls ++ [target]) index)) index =
      if controls.all (clear target index).testBit then flip target index else index := by
  by_cases set : ∀ control ∈ controls, index.testBit control = true
  · rw [gather_concat, invertLowest_full _ _ ((gather_full controls index).2 set),
      scatter_invert controls target index set]
    by_cases listed : target ∈ controls
    · rw [if_pos listed, if_neg (fun all => ((all_clear controls target index).1 all).2 listed)]
    · rw [if_neg listed, if_pos ((all_clear controls target index).2 ⟨set, listed⟩)]
  · rw [gather_concat, invertLowest_rest _ _ (mt (gather_full controls index).1 set),
      ← gather_concat, scatter_gather, if_neg (fun all => set ((all_clear controls target index).1 all).1)]

theorem testBit_scatter_pair (first second index : Nat) (high low : Bool) (bit : Nat) :
    (scatter [first, second] (2 * high.toNat + low.toNat) index).testBit bit =
      (index.testBit bit && decide (bit ∉ [first, second]) ||
        (high && decide (first = bit) || low && decide (second = bit))) := by
  have single := testBit_deal_concat [] first 0 high bit
  rw [List.nil_append, Nat.mul_zero, Nat.zero_add] at single
  have pair := testBit_deal_concat [first] second high.toNat low bit
  rw [List.singleton_append] at pair
  rw [scatter, Nat.testBit_or, testBit_clearAll, pair, single]
  simp [deal]

/-- A qubit that is listed twice is set by either digit. -/
theorem scatter_repeated (qubit index : Nat) (high low : Bool) :
    scatter [qubit, qubit] (2 * high.toNat + low.toNat) index =
      scatter [qubit] (high || low).toNat index := by
  have single := testBit_scatter_concat [] qubit index (high || low)
  rw [List.nil_append, show gather [] index = 0 from rfl, Nat.mul_zero, Nat.zero_add] at single
  apply Nat.eq_of_testBit_eq
  intro bit
  rw [testBit_scatter_pair, single]
  by_cases same : qubit = bit
  · subst same
    simp
  · simp [same, Ne.symm same]

/-- Exchanging the two listed bits. -/
theorem scatter_exchange (first second index : Nat) :
    scatter [first, second] (2 * (index.testBit second).toNat + (index.testBit first).toNat) index =
      if index.testBit first != index.testBit second then flip first (flip second index)
      else index := by
  by_cases equal : index.testBit first = index.testBit second
  · have gathered : 2 * (index.testBit second).toNat + (index.testBit first).toNat =
        gather [first, second] index := by simp [gather, equal]
    rw [gathered, scatter_gather, equal]
    simp
  · -- Unequal bits stand at different places, and exchanging them inverts both.
    have apart : first ≠ second := fun same => equal (by rw [same])
    have opposite : index.testBit second = !index.testBit first := by
      cases one : index.testBit first <;> cases two : index.testBit second <;> simp_all
    rw [if_pos (by simpa using equal)]
    apply Nat.eq_of_testBit_eq
    intro bit
    rw [testBit_scatter_pair, testBit_flip, testBit_flip]
    by_cases isFirst : first = bit
    · subst isFirst
      simp [apart.symm, opposite]
    · by_cases isSecond : second = bit
      · subst isSecond
        simp [apart, opposite]
      · simp [isFirst, isSecond, Ne.symm isFirst, Ne.symm isSecond]

theorem lt_size {count index : Nat} (unset : ∀ bit, count ≤ bit → index.testBit bit = false) :
    index < size count :=
  Nat.lt_pow_two_of_testBit index unset

theorem testBit_of_size_le {count index bit : Nat} (inside : index < size count) (beyond : count ≤ bit) :
    index.testBit bit = false :=
  Nat.testBit_lt_two_pow (Nat.lt_of_lt_of_le inside (Nat.pow_le_pow_right Nat.two_pos beyond))

theorem flip_lt {count qubit index : Nat} (listed : qubit < count) (inside : index < size count) :
    flip qubit index < size count := by
  apply lt_size
  intro bit beyond
  rw [testBit_flip, testBit_of_size_le inside beyond, decide_eq_false (by omega)]
  rfl

/-- The index with the target inverted where all controls are one. A target among its own
controls is never inverted. -/
def flipIf (controls : List Nat) (target index : Nat) : Nat :=
  if controls.all (clear target index).testBit then flip target index else index

def exchange (first second index : Nat) : Nat :=
  if index.testBit first != index.testBit second then flip first (flip second index) else index

theorem flipIf_lt {count target index : Nat} (controls : List Nat) (listed : target < count)
    (inside : index < size count) : flipIf controls target index < size count := by
  unfold flipIf
  split
  · exact flip_lt listed inside
  · exact inside

theorem exchange_lt {count first second index : Nat} (firstListed : first < count)
    (secondListed : second < count) (inside : index < size count) :
    exchange first second index < size count := by
  unfold exchange
  split
  · exact flip_lt firstListed (flip_lt secondListed inside)
  · exact inside

theorem flip_flip (qubit index : Nat) : flip qubit (flip qubit index) = index := by
  apply Nat.eq_of_testBit_eq
  intro bit
  rw [testBit_flip, testBit_flip]
  simp

theorem clear_flip (qubit index : Nat) : clear qubit (flip qubit index) = clear qubit index := by
  apply Nat.eq_of_testBit_eq
  intro bit
  rw [testBit_clear, testBit_clear, testBit_flip]
  by_cases same : qubit = bit <;> simp [same]

theorem flipIf_flipIf (controls : List Nat) (target index : Nat) :
    flipIf controls target (flipIf controls target index) = index := by
  by_cases set : controls.all (clear target index).testBit
  · have flipped : flipIf controls target index = flip target index := if_pos set
    rw [flipped, flipIf, clear_flip, if_pos set, flip_flip]
  · have kept : flipIf controls target index = index := if_neg set
    rw [kept, kept]

theorem testBit_deal_of_notMem {qubits : List Nat} {bit : Nat} (unlisted : bit ∉ qubits) (number : Nat) :
    (deal qubits number).testBit bit = false := by
  induction qubits with
  | nil => simp [deal]
  | cons qubit rest ih =>
    obtain ⟨other, unlisted⟩ := List.ne_and_not_mem_of_not_mem_cons unlisted
    rw [testBit_deal_cons, ih unlisted, decide_eq_false (Ne.symm other), Bool.and_false, Bool.or_false]

theorem testBit_scatter_of_notMem {qubits : List Nat} {bit : Nat} (unlisted : bit ∉ qubits) (number index : Nat) :
    (scatter qubits number index).testBit bit = index.testBit bit := by
  rw [scatter, Nat.testBit_or, testBit_clearAll, testBit_deal_of_notMem unlisted, decide_eq_true unlisted,
    Bool.and_true, Bool.or_false]

theorem scatter_lt {count index : Nat} {qubits : List Nat} (listed : ∀ qubit ∈ qubits, qubit < count)
    (inside : index < size count) (number : Nat) : scatter qubits number index < size count := by
  apply lt_size
  intro bit beyond
  have unlisted : bit ∉ qubits := fun member => by
    have := listed bit member
    omega
  rw [testBit_scatter_of_notMem unlisted]
  exact testBit_of_size_le inside beyond

theorem gather_congr {qubits : List Nat} {first second : Nat}
    (same : ∀ qubit ∈ qubits, first.testBit qubit = second.testBit qubit) :
    gather qubits first = gather qubits second := by
  induction qubits using List.reverseRecOn with
  | nil => rfl
  | append_singleton qubits qubit ih =>
    rw [gather_concat, gather_concat, ih fun other member => same other (List.mem_append_left _ member),
      same qubit (List.mem_append_right _ (List.mem_singleton_self _))]

theorem gather_deal {qubits : List Nat} (distinct : qubits.Nodup) {number : Nat}
    (inside : number < size qubits.length) : gather qubits (deal qubits number) = number := by
  induction qubits using List.reverseRecOn generalizing number with
  | nil =>
    have zero : number = 0 := Nat.lt_one_iff.1 inside
    rw [zero]
    rfl
  | append_singleton qubits qubit ih =>
    obtain ⟨half, last, rfl⟩ := exists_concat number
    obtain ⟨distinct, _, apart⟩ := List.nodup_append.1 distinct
    have unlisted : qubit ∉ qubits := fun member =>
      apart qubit member qubit (List.mem_singleton_self _) rfl
    rw [List.length_append, List.length_singleton, size_succ] at inside
    have others : gather qubits (deal (qubits ++ [qubit]) (2 * half + last.toNat)) =
        gather qubits (deal qubits half) := by
      apply gather_congr
      intro other member
      have different : qubit ≠ other := fun same => unlisted (same ▸ member)
      rw [testBit_deal_concat, decide_eq_false different, Bool.and_false, Bool.or_false]
    rw [gather_concat, others, ih distinct (by omega), testBit_deal_concat, testBit_deal_of_notMem unlisted]
    simp

theorem clearAll_scatter (qubits : List Nat) (number index : Nat) :
    clearAll qubits (scatter qubits number index) = clearAll qubits index := by
  apply Nat.eq_of_testBit_eq
  intro bit
  rw [testBit_clearAll, testBit_clearAll, scatter, Nat.testBit_or, testBit_clearAll]
  by_cases listed : bit ∈ qubits
  · simp [listed]
  · simp [listed, testBit_deal_of_notMem listed]

/-- Bits that are put into different places can be read off again. -/
theorem gather_scatter {qubits : List Nat} (distinct : qubits.Nodup) {number : Nat}
    (inside : number < size qubits.length) (index : Nat) :
    gather qubits (scatter qubits number index) = number := by
  have placed : gather qubits (scatter qubits number index) = gather qubits (deal qubits number) := by
    apply gather_congr
    intro qubit member
    rw [scatter, Nat.testBit_or, testBit_clearAll]
    simp [member]
  rw [placed, gather_deal distinct inside]

/-- An index is found from its listed bits and from any index with the same others. -/
theorem scatter_gather_of_clearAll {qubits : List Nat} {first second : Nat}
    (same : clearAll qubits first = clearAll qubits second) :
    scatter qubits (gather qubits second) first = second := by
  rw [scatter, same]
  exact scatter_gather qubits second

/-- The bits of the number that listed bits form, the last listed one lowest. -/
theorem testBit_gather (qubits : List Nat) (index bit : Nat) :
    (gather qubits index).testBit bit = (qubits.reverse[bit]?.map index.testBit).getD false := by
  induction qubits using List.reverseRecOn generalizing bit with
  | nil => simp [gather]
  | append_singleton qubits qubit ih =>
    rw [gather_concat, List.reverse_append, List.reverse_singleton, List.singleton_append]
    cases bit with
    | zero =>
      rw [lowest_concat]
      rfl
    | succ bit => rw [Nat.testBit_succ, half_concat, ih, List.getElem?_cons_succ]

theorem testBit_gather_position {qubits : List Nat} {position : Nat} (bound : position < qubits.length)
    (index : Nat) :
    (gather qubits index).testBit (qubits.length - 1 - position) = index.testBit qubits[position] := by
  have mirrored : qubits.reverse[qubits.length - 1 - position]? = some qubits[position] := by
    rw [List.getElem?_reverse (by omega), List.getElem?_eq_getElem (by omega)]
    congr 2
    omega
  rw [testBit_gather, mirrored]
  rfl

theorem testBit_deal_position {qubits : List Nat} (distinct : qubits.Nodup) {position : Nat}
    (bound : position < qubits.length) (number : Nat) :
    (deal qubits number).testBit qubits[position] = number.testBit (qubits.length - 1 - position) := by
  induction qubits generalizing position with
  | nil => simp at bound
  | cons qubit rest ih =>
    obtain ⟨fresh, distinct⟩ := List.nodup_cons.1 distinct
    rw [testBit_deal_cons]
    cases position with
    | zero =>
      rw [List.getElem_cons_zero, decide_eq_true rfl, Bool.and_true, testBit_deal_of_notMem fresh, Bool.or_false]
      rfl
    | succ position =>
      have listed : position < rest.length := Nat.lt_of_succ_lt_succ bound
      have apart : qubit ≠ rest[position] := fun same => fresh (same ▸ List.getElem_mem listed)
      have place : (qubit :: rest).length - 1 - (position + 1) = rest.length - 1 - position := by
        rw [List.length_cons]
        omega
      rw [List.getElem_cons_succ, decide_eq_false apart, Bool.and_false, Bool.false_or, ih distinct listed, place]

theorem testBit_scatter_of_mem {qubits : List Nat} {bit : Nat} (listed : bit ∈ qubits) (number index : Nat) :
    (scatter qubits number index).testBit bit = (deal qubits number).testBit bit := by
  rw [scatter, Nat.testBit_or, testBit_clearAll, decide_eq_false (not_not.2 listed), Bool.and_false, Bool.false_or]

theorem scatter_scatter (qubits : List Nat) (number other index : Nat) :
    scatter qubits number (scatter qubits other index) = scatter qubits number index := by
  rw [scatter, clearAll_scatter]
  rfl

theorem gather_scatter_of_disjoint {qubits others : List Nat} (apart : qubits.Disjoint others)
    (number index : Nat) : gather qubits (scatter others number index) = gather qubits index :=
  gather_congr fun _ listed => testBit_scatter_of_notMem (apart listed) number index

theorem scatter_comm {qubits others : List Nat} (apart : qubits.Disjoint others) (number other index : Nat) :
    scatter qubits number (scatter others other index) = scatter others other (scatter qubits number index) := by
  apply Nat.eq_of_testBit_eq
  intro bit
  by_cases first : bit ∈ qubits
  · have second : bit ∉ others := apart first
    rw [testBit_scatter_of_mem first, testBit_scatter_of_notMem second, testBit_scatter_of_mem first]
  · rw [testBit_scatter_of_notMem first]
    by_cases second : bit ∈ others
    · rw [testBit_scatter_of_mem second, testBit_scatter_of_mem second]
    · rw [testBit_scatter_of_notMem second, testBit_scatter_of_notMem second, testBit_scatter_of_notMem first]

theorem clearAll_lt {count index : Nat} (qubits : List Nat) (inside : index < size count) :
    clearAll qubits index < size count := by
  apply lt_size
  intro bit beyond
  rw [testBit_clearAll, testBit_of_size_le inside beyond, Bool.false_and]

/-- Listed bits that a number sets in an index only where they are set make it no larger than the
number that they form. -/
theorem le_gather {qubits : List Nat} {number index : Nat} (inside : number < size qubits.length)
    (covered : ∀ bit, (deal qubits number).testBit bit = true → index.testBit bit = true) :
    number ≤ gather qubits index := by
  induction qubits using List.reverseRecOn generalizing number with
  | nil =>
    have zero : number = 0 := Nat.lt_one_iff.1 inside
    rw [zero]
    exact Nat.zero_le _
  | append_singleton qubits qubit ih =>
    obtain ⟨half, last, rfl⟩ := exists_concat number
    rw [List.length_append, List.length_singleton, size_succ] at inside
    have upper : half ≤ gather qubits index := by
      refine ih (by omega) fun bit set => covered bit ?_
      rw [testBit_deal_concat, set, Bool.true_or]
    have lower : last.toNat ≤ (index.testBit qubit).toNat := by
      cases last with
      | false => exact Nat.zero_le _
      | true =>
        have set : index.testBit qubit = true := covered qubit (by rw [testBit_deal_concat]; simp)
        exact Nat.le_of_eq (congrArg Bool.toNat set).symm
    rw [gather_concat]
    omega

theorem testBit_deal_of_set {qubits : List Nat} {number : Nat}
    (set : ∀ position < qubits.length, number.testBit position = true) (bit : Nat) :
    (deal qubits number).testBit bit = decide (bit ∈ qubits) := by
  induction qubits with
  | nil => simp [deal]
  | cons qubit rest ih =>
    have own : number.testBit rest.length = true := set _ (Nat.lt_succ_self _)
    have others := ih fun position bound => set position (Nat.lt_succ_of_lt bound)
    rw [testBit_deal_cons, own, others]
    by_cases same : qubit = bit
    · simp [same]
    · simp [same, Ne.symm same]

/-- The largest number sets all listed bits, so it selects the indices in which none of them is set. -/
theorem and_deal_full (qubits : List Nat) (index : Nat) :
    index &&& deal qubits (size qubits.length - 1) = 0 ↔ clearAll qubits index = index := by
  have full (bit : Nat) : (deal qubits (size qubits.length - 1)).testBit bit = decide (bit ∈ qubits) :=
    testBit_deal_of_set (fun position bound => by
      rw [size, Nat.pow_eq, Nat.testBit_two_pow_sub_one, decide_eq_true bound]) bit
  have bitwise (first second : Nat) : first = second ↔ ∀ bit, first.testBit bit = second.testBit bit :=
    ⟨fun same _ => same ▸ rfl, Nat.eq_of_testBit_eq⟩
  rw [bitwise, bitwise]
  refine forall_congr' fun bit => ?_
  rw [Nat.testBit_and, full, Nat.zero_testBit, testBit_clearAll]
  by_cases listed : bit ∈ qubits <;> simp [listed]

theorem clearAll_clearAll (qubits : List Nat) (index : Nat) :
    clearAll qubits (clearAll qubits index) = clearAll qubits index := by
  apply Nat.eq_of_testBit_eq
  intro bit
  rw [testBit_clearAll, testBit_clearAll, Bool.and_assoc, Bool.and_self]

end CircuitRunner.Basis
