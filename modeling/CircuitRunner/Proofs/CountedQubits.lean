import CircuitRunner.Proofs.LoweredInstruction
import CircuitRunner.Proofs.NestedOperation

/-! Which qubits count for the size of a circuit. A loop is summed up before it is counted, and the summary
lists no qubits once an operation of the body acts on all of them. What the other operations of that body
act on is then not counted, although the same operations written in place of the loop would be. -/
namespace CircuitRunner
variable {R : Type}

namespace InvolvedQubits

/-- The summary of some operations: about all qubits as soon as one of them is, else the qubits that they
list. -/
structure Summarises (involved : InvolvedQubits) (operations : List (Operation R)) : Prop where
  all_iff : involved = .all ↔ ∃ operation ∈ operations, operation.involvedQubits = .all
  mem_iff : involved ≠ .all → ∀ qubit, qubit ∈ involved.listed ↔
    ∃ operation ∈ operations, qubit ∈ operation.involvedQubits.listed

namespace Summarises

theorem own (operation : Operation R) : operation.involvedQubits.Summarises [operation] :=
  ⟨by simp, by simp⟩

theorem union {first second : InvolvedQubits} {operations rest : List (Operation R)}
    (one : first.Summarises operations) (two : second.Summarises rest) :
    (first.union second).Summarises (operations ++ rest) := by
  constructor
  · rw [union_eq_all, one.all_iff, two.all_iff]
    simp only [List.mem_append, or_and_right, exists_or]
  · intro limited qubit
    obtain ⟨firstLimited, secondLimited⟩ := not_or.1 (mt union_eq_all.2 limited)
    rw [mem_listed_union firstLimited secondLimited, one.mem_iff firstLimited, two.mem_iff secondLimited]
    simp only [List.mem_append, or_and_right, exists_or]

end Summarises
end InvolvedQubits

namespace Operation

mutual

theorem summarises_inlined (operation : Operation R) : operation.involvedQubits.Summarises operation.inlined := by
  cases operation with
  | loop repetitions body =>
    rw [involvedQubits, inlined]
    exact summarises_inlinedBody body
  | _ => exact .own _

theorem summarises_inlinedBody (body : List (Operation R)) : (involvedInBody body).Summarises (inlinedBody body) := by
  cases body with
  | nil => constructor <;> simp [involvedInBody, inlinedBody, InvolvedQubits.listed]
  | cons operation rest =>
    rw [involvedInBody_cons, inlinedBody]
    exact (summarises_inlined operation).union (summarises_inlinedBody rest)

end

/-- Entered through all its loops, the operation acts on the qubit and nowhere on all qubits. -/
def Counts (operation : Operation R) (qubit : Nat) : Prop :=
  (∀ inner ∈ operation.inlined, inner.involvedQubits ≠ .all) ∧
    ∃ inner ∈ operation.inlined, qubit ∈ inner.involvedQubits.listed

theorem counts_iff {operation : Operation R} {qubit : Nat} :
    operation.Counts qubit ↔ qubit ∈ operation.involvedQubits.listed := by
  have summary := operation.summarises_inlined
  by_cases all : operation.involvedQubits = .all
  · obtain ⟨inner, inside, acts⟩ := summary.all_iff.1 all
    rw [all]
    exact ⟨fun counted => absurd acts (counted.1 inner inside), nofun⟩
  · have limited := mt summary.all_iff.2 all
    rw [summary.mem_iff all qubit]
    exact and_iff_right fun inner inside acts => limited ⟨inner, inside, acts⟩

theorem mem_inlinedBody {inner : Operation R} {body : List (Operation R)} :
    inner ∈ inlinedBody body ↔ ∃ operation ∈ body, inner ∈ operation.inlined := by
  induction body with
  | nil => simp [inlinedBody]
  | cons operation rest ih => simp [inlinedBody, ih]

end Operation

namespace IsRegisterSize
variable {size other : Nat} {counted within : Nat → Prop}

theorem lt_iff (sized : IsRegisterSize size counted) {qubit : Nat} :
    qubit < size ↔ ∃ highest, counted highest ∧ qubit ≤ highest := by
  constructor
  · intro inside
    have last : size = size - 1 + 1 := by omega
    exact ⟨size - 1, sized.attained _ last, by omega⟩
  · rintro ⟨highest, listed, above⟩
    exact Nat.lt_of_le_of_lt above (sized.above highest listed)

theorem eq_iff (sized : IsRegisterSize size counted) (sizedOther : IsRegisterSize other within)
    (part : ∀ qubit, counted qubit → within qubit) :
    size = other ↔ ∀ qubit, within qubit → ∃ highest, counted highest ∧ qubit ≤ highest := by
  constructor
  · rintro rfl qubit listed
    exact sized.lt_iff.1 (sizedOther.above qubit listed)
  · intro reached
    have same (qubit : Nat) : qubit < size ↔ qubit < other := by
      rw [sized.lt_iff, sizedOther.lt_iff]
      constructor
      · rintro ⟨highest, listed, above⟩
        exact ⟨highest, part highest listed, above⟩
      · rintro ⟨top, listed, above⟩
        obtain ⟨highest, counted, higher⟩ := reached top listed
        exact ⟨highest, counted, Nat.le_trans above higher⟩
    exact Nat.le_antisymm (Nat.le_of_not_lt fun less => Nat.lt_irrefl _ ((same _).1 less))
      (Nat.le_of_not_lt fun less => Nat.lt_irrefl _ ((same _).2 less))

end IsRegisterSize

namespace Circuit

theorem isRegisterSize_counted (circuit : Circuit R)
    (room : ∀ operation ∈ circuit.inlined,
      ∀ qubit ∈ operation.involvedQubits.listed, qubit < Nat.pow 2 64 - 1) :
    IsRegisterSize circuit.numberOfQubits fun qubit => ∃ operation ∈ circuit, operation.Counts qubit := by
  have roomAtTop : ∀ operation ∈ circuit,
      ∀ qubit ∈ operation.involvedQubits.listed, qubit < Nat.pow 2 64 - 1 := by
    intro operation member qubit listed
    obtain ⟨_, inner, inside, listedInside⟩ := Operation.counts_iff.2 listed
    exact room inner (Operation.mem_inlinedBody.2 ⟨operation, member, inside⟩) qubit listedInside
  simpa only [Operation.counts_iff] using circuit.isRegisterSize_numberOfQubits roomAtTop

/-- Only a loop can hide the qubits of one operation behind another. -/
theorem counts_of_inlined {circuit : Circuit R}
    (plain : ∀ repetitions body, .loop repetitions body ∈ circuit →
      ∀ inner ∈ Operation.inlinedBody body, inner.involvedQubits ≠ .all)
    {inner : Operation R} (inside : inner ∈ circuit.inlined) {qubit : Nat}
    (listed : qubit ∈ inner.involvedQubits.listed) : ∃ operation ∈ circuit, operation.Counts qubit := by
  obtain ⟨operation, member, within⟩ := Operation.mem_inlinedBody.1 inside
  refine ⟨operation, member, ?_⟩
  cases operation with
  | loop repetitions body =>
    rw [Operation.Counts, Operation.inlined] at *
    exact ⟨plain repetitions body member, inner, within, listed⟩
  | _ =>
    obtain rfl := List.mem_singleton.1 within
    exact Operation.counts_iff.2 listed

/-- The size of a circuit is one more than the largest qubit counted at top level or in a loop that holds
no operation on all qubits; with every loop body written in its place it is one more than the largest qubit
that any operation lists. The two agree exactly where the largest qubit counts, and so in every circuit
without an operation on all qubits in a loop. -/
theorem numberOfQubits_counted (circuit : Circuit R)
    (room : ∀ operation ∈ circuit.inlined,
      ∀ qubit ∈ operation.involvedQubits.listed, qubit < Nat.pow 2 64 - 1) :
    IsRegisterSize circuit.numberOfQubits (fun qubit => ∃ operation ∈ circuit, operation.Counts qubit) ∧
      IsRegisterSize (numberOfQubits circuit.inlined)
        (fun qubit => ∃ inner ∈ circuit.inlined, qubit ∈ inner.involvedQubits.listed) ∧
      (circuit.numberOfQubits = numberOfQubits circuit.inlined ↔
        ∀ qubit, (∃ inner ∈ circuit.inlined, qubit ∈ inner.involvedQubits.listed) →
          ∃ highest, (∃ operation ∈ circuit, operation.Counts highest) ∧ qubit ≤ highest) ∧
      ((∀ repetitions body, .loop repetitions body ∈ circuit →
          ∀ inner ∈ Operation.inlinedBody body, inner.involvedQubits ≠ .all) →
        circuit.numberOfQubits = numberOfQubits circuit.inlined) := by
  have counted := circuit.isRegisterSize_counted room
  have inPlace := isRegisterSize_numberOfQubits circuit.inlined room
  have agree := counted.eq_iff inPlace (by
    rintro qubit ⟨operation, member, _, inner, inside, listed⟩
    exact ⟨inner, Operation.mem_inlinedBody.2 ⟨operation, member, inside⟩, listed⟩)
  refine ⟨counted, inPlace, agree, fun plain => agree.2 ?_⟩
  rintro qubit ⟨inner, inside, listed⟩
  exact ⟨qubit, counts_of_inlined plain inside listed, Nat.le_refl qubit⟩

/-- The loop with the highest qubit measures all qubits as well. -/
theorem numberOfQubits_counted_hidden :
    let circuit : Circuit Float := [.gate .cnot #v[0, 5] #v[],
      .loop (.literal 2) [.stopDecomposition [1, 4], .loop (.literal 1) [.activeReset 6]],
      .loop (.literal 3) [.loop (.literal 1) [.gate .pauliX #v[9] #v[]], .repeatedMeasurement "ro" 1]]
    (∀ operation ∈ circuit.inlined, ∀ qubit ∈ operation.involvedQubits.listed, qubit < Nat.pow 2 64 - 1) ∧
      IsRegisterSize 7 (fun qubit => ∃ operation ∈ circuit, operation.Counts qubit) ∧
      circuit.numberOfQubits ≠ numberOfQubits circuit.inlined := by
  intro circuit
  have room : ∀ operation ∈ circuit.inlined, ∀ qubit ∈ operation.involvedQubits.listed,
      qubit < Nat.pow 2 64 - 1 := by decide +kernel
  obtain ⟨counted, _⟩ := numberOfQubits_counted circuit room
  have size : circuit.numberOfQubits = 7 := by decide +kernel
  exact ⟨room, size ▸ counted, by decide +kernel⟩

/-- A loop over a gate and a measurement of all qubits is counted as if the gate were not there. -/
theorem numberOfQubits_hidden_gate :
    let circuit : Circuit Float := [.loop (.literal 2) [.gate .pauliX #v[4] #v[], .repeatedMeasurement "ro" 1]]
    (∀ operation ∈ circuit.inlined, ∀ qubit ∈ operation.involvedQubits.listed, qubit < Nat.pow 2 64 - 1) ∧
      circuit.numberOfQubits = 0 ∧ numberOfQubits circuit.inlined = 5 ∧
      ¬ IsRegisterSize circuit.numberOfQubits
        (fun qubit => ∃ inner ∈ circuit.inlined, qubit ∈ inner.involvedQubits.listed) := by
  intro circuit
  have room : ∀ operation ∈ circuit.inlined, ∀ qubit ∈ operation.involvedQubits.listed,
      qubit < Nat.pow 2 64 - 1 := by decide +kernel
  have size : circuit.numberOfQubits = 0 := by decide +kernel
  refine ⟨room, size, by decide +kernel, fun sized => ?_⟩
  have outside : 4 < circuit.numberOfQubits :=
    sized.above 4 ⟨.gate .pauliX #v[4] #v[], List.mem_cons_self, by decide +kernel⟩
  rw [size] at outside
  cases outside

end Circuit
end CircuitRunner
