import CircuitRunner.Circuit
import CircuitRunner.Proofs.GateTables

/-! The operations of a circuit at every depth, and the register that they need. The number of qubits is
one more than the largest qubit that an operation at top level lists. Where no operation acts on all
qubits, the involved qubits are those that the nested operations name. -/
namespace CircuitRunner

theorem mem_insertAscending {qubit other : Nat} {qubits : List Nat} :
    other ∈ insertAscending qubit qubits ↔ other = qubit ∨ other ∈ qubits := by
  induction qubits with
  | nil => simp [insertAscending]
  | cons head rest ih =>
    unfold insertAscending
    split
    · simp
    · split
      · rename_i same
        simp [same]
      · simp [ih, or_left_comm]

theorem pairwise_insertAscending {qubits : List Nat} (qubit : Nat) (ordered : qubits.Pairwise (· < ·)) :
    (insertAscending qubit qubits).Pairwise (· < ·) := by
  induction qubits with
  | nil => simp [insertAscending]
  | cons head rest ih =>
    obtain ⟨least, orderedRest⟩ := List.pairwise_cons.1 ordered
    unfold insertAscending
    split
    · rename_i smaller
      refine List.pairwise_cons.2 ⟨?_, ordered⟩
      intro other member
      rcases List.mem_cons.1 member with rfl | later
      · exact smaller
      · exact Nat.lt_trans smaller (least other later)
    · rename_i notSmaller
      split
      · exact ordered
      · rename_i different
        refine List.pairwise_cons.2 ⟨?_, ih orderedRest⟩
        intro other member
        rcases mem_insertAscending.1 member with rfl | later
        · omega
        · exact least other later

@[simp] theorem mem_ascending {qubit : Nat} {qubits : List Nat} : qubit ∈ ascending qubits ↔ qubit ∈ qubits := by
  induction qubits with
  | nil => rfl
  | cons head rest ih =>
    change qubit ∈ insertAscending head (ascending rest) ↔ _
    rw [mem_insertAscending, ih, List.mem_cons]

theorem pairwise_ascending (qubits : List Nat) : (ascending qubits).Pairwise (· < ·) := by
  induction qubits with
  | nil => exact .nil
  | cons head rest ih => exact pairwise_insertAscending head ih

theorem le_of_getLast? {qubits : List Nat} (ordered : qubits.Pairwise (· < ·)) {highest : Nat}
    (last : qubits.getLast? = some highest) {qubit : Nat} (member : qubit ∈ qubits) : qubit ≤ highest := by
  obtain ⟨before, rfl⟩ := List.getLast?_eq_some_iff.1 last
  obtain ⟨_, _, below⟩ := List.pairwise_append.1 ordered
  rcases List.mem_append.1 member with early | final
  · exact Nat.le_of_lt (below qubit early highest (List.mem_singleton_self _))
  · exact Nat.le_of_eq (List.mem_singleton.1 final)

variable {R : Type}

namespace Operation

mutual

def nested : Operation R → List (Operation R)
  | .loop repetitions body => .loop repetitions body :: nestedBody body
  | .conditional register index body => .conditional register index body :: nestedBody body
  | operation => [operation]

def nestedBody : List (Operation R) → List (Operation R)
  | [] => []
  | operation :: rest => nested operation ++ nestedBody rest

end

def qubits : Operation R → List Nat
  | .gate _ operands _ => operands.toList
  | .measure qubit _ _ | .activeReset qubit | .damping qubit _ _ => [qubit]
  | .startDecomposition qubits _ | .stopDecomposition qubits | .stopParallel qubits _ => qubits
  | _ => []

theorem mem_nestedBody {inner : Operation R} {body : List (Operation R)} :
    inner ∈ nestedBody body ↔ ∃ operation ∈ body, inner ∈ operation.nested := by
  induction body with
  | nil => simp [nestedBody]
  | cons operation rest ih => simp [nestedBody, ih]

end Operation

namespace InvolvedQubits

def listed : InvolvedQubits → List Nat
  | .some qubits => qubits
  | .all | .none => []

/-- The union of two parts of a body, which names no qubits unless both parts say which they are. -/
def union : InvolvedQubits → InvolvedQubits → InvolvedQubits
  | .all, _ | _, .all => .all
  | .some [], others | .none, others => others
  | .some qubits, .none => .some qubits
  | .some qubits, .some others => .some (ascending (qubits ++ others))

variable {first second : InvolvedQubits}

theorem union_eq_all : first.union second = .all ↔ first = .all ∨ second = .all := by
  unfold union
  split <;> simp_all

theorem mem_listed_union (one : first ≠ .all) (two : second ≠ .all) {qubit : Nat} :
    qubit ∈ (first.union second).listed ↔ qubit ∈ first.listed ∨ qubit ∈ second.listed := by
  unfold union
  split <;> simp_all [listed]

theorem pairwise_listed_union (one : first.listed.Pairwise (· < ·)) (two : second.listed.Pairwise (· < ·)) :
    (first.union second).listed.Pairwise (· < ·) := by
  unfold union
  split
  · exact .nil
  · exact .nil
  · exact two
  · exact two
  · exact one
  · exact pairwise_ascending _

structure Lists (involved : InvolvedQubits) (operations : List (Operation R)) : Prop where
  limited : involved ≠ .all
  mem_iff : ∀ qubit, qubit ∈ involved.listed ↔ ∃ operation ∈ operations, qubit ∈ operation.qubits

end InvolvedQubits

namespace InvolvedQubits.Lists

theorem own {involved : InvolvedQubits} {operation : Operation R} (limited : involved ≠ .all)
    (named : ∀ qubit, qubit ∈ involved.listed ↔ qubit ∈ operation.qubits) : involved.Lists [operation] :=
  ⟨limited, by simpa using named⟩

theorem enter {involved : InvolvedQubits} {operation : Operation R} {body : List (Operation R)}
    (silent : operation.qubits = []) (lists : involved.Lists body) : involved.Lists (operation :: body) :=
  ⟨lists.limited, by simpa [silent] using lists.mem_iff⟩

theorem union {first second : InvolvedQubits} {operations rest : List (Operation R)}
    (one : first.Lists operations) (two : second.Lists rest) : (first.union second).Lists (operations ++ rest) := by
  refine ⟨?_, fun qubit => ?_⟩
  · rw [Ne, union_eq_all]
    exact not_or.2 ⟨one.limited, two.limited⟩
  · rw [mem_listed_union one.limited two.limited, one.mem_iff, two.mem_iff]
    simp only [List.mem_append, or_and_right, exists_or]

end InvolvedQubits.Lists

namespace Operation

theorem involvedInBody_cons (operation : Operation R) (rest : List (Operation R)) :
    involvedInBody (operation :: rest) = operation.involvedQubits.union (involvedInBody rest) := by
  rw [involvedInBody]
  rfl

mutual

theorem pairwise_involvedQubits (operation : Operation R) : operation.involvedQubits.listed.Pairwise (· < ·) := by
  cases operation with
  | gate kind operands parameters =>
    rw [involvedQubits, kind.involvedQubits_eq]
    exact pairwise_ascending _
  | startDecomposition | stopDecomposition | stopParallel => exact pairwise_ascending _
  | measure | activeReset | damping => exact List.pairwise_singleton _ _
  | define | globalPhase | repeatedMeasurement | setMeasurements => exact .nil
  | loop repetitions body | conditional register index body =>
    rw [involvedQubits]
    exact pairwise_involvedInBody body

theorem pairwise_involvedInBody (body : List (Operation R)) : (involvedInBody body).listed.Pairwise (· < ·) := by
  cases body with
  | nil => exact .nil
  | cons operation rest =>
    rw [involvedInBody_cons]
    exact InvolvedQubits.pairwise_listed_union (pairwise_involvedQubits operation) (pairwise_involvedInBody rest)

end

mutual

theorem lists_involvedQubits (operation : Operation R)
    (selective : ∀ readout count, .repeatedMeasurement readout count ∉ operation.nested) :
    operation.involvedQubits.Lists operation.nested := by
  cases operation with
  | gate kind operands parameters =>
    rw [involvedQubits, kind.involvedQubits_eq]
    exact .own nofun fun _ => mem_ascending
  | startDecomposition | stopDecomposition | stopParallel => exact .own nofun fun _ => mem_ascending
  | measure | activeReset | damping | define | globalPhase | setMeasurements =>
    exact .own nofun fun _ => Iff.rfl
  | repeatedMeasurement readout count => exact absurd (List.mem_singleton_self _) (selective readout count)
  | loop repetitions body =>
    have inBody := lists_involvedInBody body fun readout count inside =>
      selective readout count (List.mem_cons_of_mem _ inside)
    rw [involvedQubits, nested]
    exact inBody.enter rfl
  | conditional register index body =>
    have inBody := lists_involvedInBody body fun readout count inside =>
      selective readout count (List.mem_cons_of_mem _ inside)
    rw [involvedQubits, nested]
    exact inBody.enter rfl

theorem lists_involvedInBody (body : List (Operation R))
    (selective : ∀ readout count, .repeatedMeasurement readout count ∉ nestedBody body) :
    (involvedInBody body).Lists (nestedBody body) := by
  cases body with
  | nil => exact ⟨nofun, by simp [involvedInBody, InvolvedQubits.listed, nestedBody]⟩
  | cons operation rest =>
    rw [nestedBody] at selective ⊢
    have one := lists_involvedQubits operation fun readout count inside =>
      selective readout count (List.mem_append_left _ inside)
    have two := lists_involvedInBody rest fun readout count inside =>
      selective readout count (List.mem_append_right _ inside)
    rw [involvedInBody_cons]
    exact one.union two

end

theorem highestQubit?_eq (operation : Operation R) :
    operation.highestQubit? = operation.involvedQubits.listed.getLast? := by
  unfold highestQubit?
  cases operation.involvedQubits <;> rfl

theorem exists_highestQubit? {operation : Operation R} {qubit : Nat}
    (listed : qubit ∈ operation.involvedQubits.listed) :
    ∃ highest, operation.highestQubit? = some highest ∧ qubit ≤ highest := by
  rw [highestQubit?_eq]
  cases last : operation.involvedQubits.listed.getLast? with
  | none =>
    rw [List.getLast?_eq_none_iff.1 last] at listed
    cases listed
  | some highest => exact ⟨highest, rfl, le_of_getLast? operation.pairwise_involvedQubits last listed⟩

end Operation

structure IsRegisterSize (size : Nat) (counted : Nat → Prop) : Prop where
  above : ∀ qubit, counted qubit → qubit < size
  attained : ∀ highest, size = highest + 1 → counted highest

namespace Circuit

/-- The largest index has to leave room for the addition. -/
theorem isRegisterSize_numberOfQubits (circuit : Circuit R)
    (room : ∀ operation ∈ circuit, ∀ qubit ∈ operation.involvedQubits.listed, qubit < Nat.pow 2 64 - 1) :
    IsRegisterSize circuit.numberOfQubits
      fun qubit => ∃ operation ∈ circuit, qubit ∈ operation.involvedQubits.listed := by
  have named {highest : Nat} (member : highest ∈ circuit.filterMap Operation.highestQubit?) :
      ∃ operation ∈ circuit, highest ∈ operation.involvedQubits.listed := by
    obtain ⟨operation, inCircuit, found⟩ := List.mem_filterMap.1 member
    rw [Operation.highestQubit?_eq] at found
    exact ⟨operation, inCircuit, List.mem_of_getLast? found⟩
  have reached {qubit : Nat} (counted : ∃ operation ∈ circuit, qubit ∈ operation.involvedQubits.listed) :
      ∃ highest ∈ circuit.filterMap Operation.highestQubit?, qubit ≤ highest := by
    obtain ⟨operation, inCircuit, listed⟩ := counted
    obtain ⟨highest, found, above⟩ := Operation.exists_highestQubit? listed
    exact ⟨highest, List.mem_filterMap.2 ⟨operation, inCircuit, found⟩, above⟩
  unfold numberOfQubits
  cases largest : (circuit.filterMap Operation.highestQubit?).max? with
  | none =>
    refine ⟨fun qubit counted => ?_, fun highest impossible => nomatch impossible⟩
    obtain ⟨highest, listed, _⟩ := reached counted
    rw [List.max?_eq_none_iff.1 largest] at listed
    cases listed
  | some top =>
    obtain ⟨attained, dominates⟩ := List.max?_eq_some_iff.1 largest
    obtain ⟨operation, inCircuit, listed⟩ := named attained
    have fits : top + 1 < Nat.pow 2 64 := Nat.add_lt_of_lt_sub (room operation inCircuit top listed)
    dsimp only
    rw [Nat.mod_eq_of_lt fits]
    refine ⟨fun qubit counted => ?_, fun highest same => ?_⟩
    · obtain ⟨highest, member, above⟩ := reached counted
      exact Nat.lt_succ_of_le (Nat.le_trans above (dominates highest member))
    · rw [← Nat.succ.inj same]
      exact ⟨operation, inCircuit, listed⟩

def nested (circuit : Circuit R) : List (Operation R) := Operation.nestedBody circuit

def Selective (circuit : Circuit R) : Prop :=
  ∀ readout count, .repeatedMeasurement readout count ∉ circuit.nested

theorem Selective.lists {circuit : Circuit R} (selective : circuit.Selective) {operation : Operation R}
    (member : operation ∈ circuit) : operation.involvedQubits.Lists operation.nested :=
  Operation.lists_involvedQubits operation fun readout count inside =>
    selective readout count (Operation.mem_nestedBody.2 ⟨operation, member, inside⟩)

/-- The number of qubits is above every qubit named in the circuit. -/
theorem Selective.lt_numberOfQubits {circuit : Circuit R} (selective : circuit.Selective)
    (room : ∀ operation ∈ circuit.nested, ∀ qubit ∈ operation.qubits, qubit < Nat.pow 2 64 - 1)
    {inner : Operation R} (inside : inner ∈ circuit.nested) {qubit : Nat} (named : qubit ∈ inner.qubits) :
    qubit < circuit.numberOfQubits := by
  have listedRoom : ∀ operation ∈ circuit,
      ∀ qubit ∈ operation.involvedQubits.listed, qubit < Nat.pow 2 64 - 1 := by
    intro operation inCircuit qubit listed
    obtain ⟨inner, within, named⟩ := ((selective.lists inCircuit).mem_iff qubit).1 listed
    exact room inner (Operation.mem_nestedBody.2 ⟨operation, inCircuit, within⟩) qubit named
  obtain ⟨operation, inCircuit, within⟩ := Operation.mem_nestedBody.1 inside
  have listed := ((selective.lists inCircuit).mem_iff qubit).2 ⟨inner, within, named⟩
  exact (circuit.isRegisterSize_numberOfQubits listedRoom).above qubit ⟨operation, inCircuit, listed⟩

end Circuit
end CircuitRunner
