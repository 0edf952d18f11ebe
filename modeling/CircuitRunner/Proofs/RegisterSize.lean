import CircuitRunner.Proofs.NestedOperation
import CircuitRunner.Proofs.RegisterRows
import CircuitRunner.Proofs.Substitution

/-! A register of as many qubits as the circuit counts is large enough. A refusal for a qubit outside the
register is traced back to an operation that names the qubit, and every such qubit is counted. -/
namespace CircuitRunner

theorem checkQubits_error {numberOfQubits qubit size : Nat} {qubits : List Nat}
    (refused : checkQubits numberOfQubits qubits = .error (.qubitOutOfRange qubit size)) :
    qubit ∈ qubits ∧ numberOfQubits ≤ qubit := by
  unfold checkQubits at refused
  split at refused
  · rename_i outside found
    cases refused
    exact ⟨List.mem_of_find?_eq_some found, by simpa using List.find?_some found⟩
  · cases refused

variable {R : Type}

namespace Operation

mutual

theorem inlined_subset_nested (operation : Operation R) : operation.inlined ⊆ operation.nested := by
  cases operation with
  | loop repetitions body =>
    rw [inlined, nested]
    exact List.subset_cons_of_subset _ (inlinedBody_subset_nestedBody body)
  | conditional register index body =>
    rw [inlined, nested]
    · exact List.cons_subset_cons _ (List.nil_subset _)
    · nofun
  | _ => exact List.Subset.refl _

theorem inlinedBody_subset_nestedBody (body : List (Operation R)) : inlinedBody body ⊆ nestedBody body := by
  cases body with
  | nil => exact List.Subset.refl _
  | cons operation rest =>
    rw [inlinedBody, nestedBody]
    exact List.append_subset.2
      ⟨List.subset_append_of_subset_left _ (inlined_subset_nested operation),
        List.subset_append_of_subset_right _ (inlinedBody_subset_nestedBody rest)⟩

end

theorem measure_of_readout? {operation : Operation R} {readout : Readout}
    (read : operation.readout? = some readout) :
    operation = .measure readout.qubit readout.register readout.index := by
  cases operation with
  | measure qubit register index => cases read; rfl
  | _ => cases read

end Operation

namespace Lowering
variable [Scalar R] [Literal R] {lowering : Lowering R} {qubit size : Nat}

omit [Scalar R] [Literal R] in
theorem outside_of_emit {instruction : Instruction R}
    (refused : lowering.emit instruction = .error (.qubitOutOfRange qubit size)) :
    qubit ∈ instruction.qubits ∧ lowering.numberOfQubits ≤ qubit :=
  checkQubits_error (error_of_map refused)

theorem outside_of_gate {kind : GateKind} {operands : Vector Nat kind.arity}
    {parameters : Vector (Parameter R) kind.parameterCount}
    (refused : lowering.operation (.gate kind operands parameters) = .error (.qubitOutOfRange qubit size)) :
    qubit ∈ operands.toList ∧ lowering.numberOfQubits ≤ qubit := by
  rw [operation_gate] at refused
  rcases error_of_bind refused with unresolved | ⟨arguments, _, refused⟩
  · have listed : parameters.toList.mapM (Parameter.resolve lowering.resolver) =
        .error (.qubitOutOfRange qubit size) := by
      rw [← toList_mapM, unresolved]
      rfl
    obtain ⟨_, parameter, _, _, _, failed⟩ := mapM_error_iff.1 listed
    cases Parameter.refused_of_resolve failed
  · exact outside_of_emit (error_of_map refused)

mutual

theorem outside_of_operation {operation : Operation R}
    (refused : lowering.operation operation = .error (.qubitOutOfRange qubit size)) :
    (∃ inner ∈ operation.inlined, qubit ∈ inner.qubits) ∧ lowering.numberOfQubits ≤ qubit := by
  cases operation with
  | gate kind operands parameters =>
    obtain ⟨named, outside⟩ := outside_of_gate refused
    exact ⟨⟨_, List.mem_singleton_self _, named⟩, outside⟩
  | activeReset target =>
    obtain ⟨named, outside⟩ := outside_of_emit refused
    exact ⟨⟨_, List.mem_singleton_self _, named⟩, outside⟩
  | loop repetitions body =>
    rw [Lowering.operation] at refused
    rcases error_of_bind refused with unresolved | ⟨value, _, refused⟩
    · cases Parameter.refused_of_resolve unresolved
    · split at refused
      · cases refused
      · rcases error_of_bind refused with refused | ⟨_, _, impossible⟩
        · exact outside_of_body refused
        · cases impossible
  | _ => cases refused

/-- A refusal for a qubit outside the register comes from an operation that names the qubit. -/
theorem outside_of_body {body : List (Operation R)}
    (refused : lowering.body body = .error (.qubitOutOfRange qubit size)) :
    (∃ inner ∈ Operation.inlinedBody body, qubit ∈ inner.qubits) ∧ lowering.numberOfQubits ≤ qubit := by
  cases body with
  | nil => cases refused
  | cons operation rest =>
    rw [Lowering.body] at refused
    rw [Operation.inlinedBody]
    rcases error_of_bind refused with refused | ⟨_, _, refused⟩
    · obtain ⟨⟨inner, inside, named⟩, outside⟩ := outside_of_operation refused
      exact ⟨⟨inner, List.mem_append_left _ inside, named⟩, outside⟩
    · rcases error_of_bind refused with refused | ⟨_, _, impossible⟩
      · obtain ⟨⟨inner, inside, named⟩, outside⟩ := outside_of_body refused
        exact ⟨⟨inner, List.mem_append_right _ inside, named⟩, outside⟩
      · cases impossible

end

end Lowering

def Circuit.Fits (circuit : Circuit R) (numberOfQubits : Nat) : Prop :=
  ∀ operation ∈ circuit.inlined, ∀ qubit ∈ operation.qubits, qubit < numberOfQubits

section Fitting
variable [Scalar R] [Literal R] {circuit : Circuit R}

theorem Circuit.Fits.lowered {lowering : Lowering R} (fits : circuit.Fits lowering.numberOfQubits)
    (qubit size : Nat) : lowering.program circuit ≠ .error (.qubitOutOfRange qubit size) := by
  intro refused
  obtain ⟨⟨inner, inside, named⟩, outside⟩ := Lowering.outside_of_body (error_of_map refused)
  exact Nat.not_lt_of_le outside (fits inner inside qubit named)

omit [Scalar R] [Literal R] in
theorem Circuit.Fits.readouts {numberOfQubits : Nat} (fits : circuit.Fits numberOfQubits) (qubit size : Nat) :
    checkQubits numberOfQubits (circuit.readouts.map (·.qubit)) ≠ .error (.qubitOutOfRange qubit size) := by
  intro refused
  obtain ⟨listed, outside⟩ := checkQubits_error refused
  obtain ⟨readout, collected, rfl⟩ := List.mem_map.1 listed
  rw [Circuit.readouts, Operation.readoutsInBody_eq] at collected
  obtain ⟨operation, inside, read⟩ := List.mem_filterMap.1 collected
  obtain rfl := Operation.measure_of_readout? read
  exact Nat.not_lt_of_le outside (fits _ inside readout.qubit (List.mem_singleton_self _))

theorem Circuit.Fits.ran {backend : Backend R} (fits : circuit.Fits backend.configuration.numberOfQubits)
    (qubit size : Nat) : backend.run circuit ≠ .error (.lowering (.qubitOutOfRange qubit size)) := by
  intro failed
  rcases error_of_bind failed with failed | ⟨_, _, failed⟩
  · obtain ⟨cause, _, impossible⟩ := error_of_mapError failed
    cases impossible
  rcases error_of_bind failed with failed | ⟨_, _, failed⟩
  · obtain ⟨cause, refused, same⟩ := error_of_mapError failed
    cases same
    exact fits.readouts qubit size refused
  rcases error_of_bind failed with failed | ⟨program, _, failed⟩
  · obtain ⟨cause, refused, same⟩ := error_of_mapError failed
    cases same
    have fitsLowering : circuit.Fits backend.lowering.numberOfQubits := fits
    exact fitsLowering.lowered qubit size refused
  rcases error_of_bind failed with failed | ⟨_, _, impossible⟩
  · obtain ⟨cause, _, impossible⟩ := error_of_mapError failed
    cases impossible
  · cases impossible

end Fitting

namespace Circuit
variable [Scalar R] [Literal R]

/-- The number of qubits of a circuit is enough for it: where no operation acts on all qubits, neither
lowering nor a run refuses it for a qubit outside the register. -/
theorem numberOfQubits_suffices (circuit : Circuit R)
    (selective : ∀ readout count, .repeatedMeasurement readout count ∉ circuit.nested)
    (room : ∀ operation ∈ circuit.nested, ∀ qubit ∈ operation.qubits, qubit < Nat.pow 2 64 - 1) :
    (∀ lowering : Lowering R, circuit.numberOfQubits ≤ lowering.numberOfQubits →
        ∀ qubit size, lowering.program circuit ≠ .error (.qubitOutOfRange qubit size)) ∧
      ∀ backend : Backend R, circuit.numberOfQubits ≤ backend.configuration.numberOfQubits →
        ∀ qubit size, backend.run circuit ≠ .error (.lowering (.qubitOutOfRange qubit size)) := by
  have fits (numberOfQubits : Nat) (enough : circuit.numberOfQubits ≤ numberOfQubits) :
      circuit.Fits numberOfQubits := by
    intro operation inside qubit named
    have nestedInside := Operation.inlinedBody_subset_nestedBody circuit inside
    exact Nat.lt_of_lt_of_le (Selective.lt_numberOfQubits selective room nestedInside named) enough
  exact ⟨fun lowering enough => (fits _ enough).lowered, fun backend enough => (fits _ enough).ran⟩

/-- The highest qubit stands inside a loop. A register of one qubit less is refused. -/
theorem numberOfQubits_suffices_looped :
    let circuit : Circuit Float := [.gate .cnot #v[0, 5] #v[],
      .loop (.literal 2) [.stopDecomposition [1, 4], .loop (.literal 1) [.activeReset 6]]]
    circuit.numberOfQubits = 7 ∧
      (∀ qubit size, Lowering.program { numberOfQubits := 7 } circuit ≠ .error (.qubitOutOfRange qubit size)) ∧
      (Lowering.program { numberOfQubits := 6 } circuit).map (·.instructions.length) =
        .error (.qubitOutOfRange 6 6) := by
  intro circuit
  have counted : circuit.numberOfQubits = 7 := by decide +kernel
  have selective : ∀ readout count, .repeatedMeasurement readout count ∉ circuit.nested := by
    simp [circuit, Circuit.nested, Operation.nestedBody, Operation.nested]
  have room : ∀ operation ∈ circuit.nested, ∀ qubit ∈ operation.qubits, qubit < Nat.pow 2 64 - 1 := by
    decide +kernel
  obtain ⟨lowered, _⟩ := numberOfQubits_suffices circuit selective room
  exact ⟨counted, lowered { numberOfQubits := 7 } (Nat.le_of_eq counted), by decide +kernel⟩

end Circuit
end CircuitRunner
