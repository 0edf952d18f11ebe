import CircuitRunner.Basis
import CircuitRunner.Proofs.GateTables

/-! The instructions of a lowered circuit. Each of them is a reset, a gate of the circuit with its
parameters resolved, or an identity on an idle qubit. Gates have as many operands as they take, a
matrix to match, and no instruction leaves the register. -/
namespace CircuitRunner

section Shape
variable {R : Type}

namespace Operation

mutual

/-- The operations met when every loop body is entered once. Bodies of conditionals are not
entered. -/
def inlined : Operation R → List (Operation R)
  | .loop _ body => inlinedBody body
  | operation => [operation]

def inlinedBody : List (Operation R) → List (Operation R)
  | [] => []
  | operation :: rest => inlined operation ++ inlinedBody rest

end

end Operation

def Circuit.inlined (circuit : Circuit R) : List (Operation R) := Operation.inlinedBody circuit

end Shape

theorem mem_of_mem_repeated {α : Type} {count : Nat} {items : List α} {item : α}
    (member : item ∈ repeated count items) : item ∈ items := by
  unfold repeated at member
  split at member
  · cases member
  · obtain ⟨copy, listed, inside⟩ := List.mem_flatten.1 member
    rw [List.eq_of_mem_replicate listed] at inside
    exact inside

theorem checkQubits_ok {numberOfQubits : Nat} {qubits : List Nat} {result : Unit}
    (ok : checkQubits numberOfQubits qubits = .ok result) : ∀ qubit ∈ qubits, qubit < numberOfQubits := by
  unfold checkQubits at ok
  split at ok
  · cases ok
  · rename_i inside
    intro qubit member
    simpa using List.find?_eq_none.1 inside qubit member

namespace Lowering
variable {R : Type} [Scalar R] [Literal R]

inductive Emits (lowering : Lowering R) (operations : List (Operation R)) : Instruction R → Prop
  | reset (qubit : Nat) (inside : qubit < lowering.numberOfQubits) :
      Emits lowering operations (.reset [qubit])
  | gate (kind : GateKind) (operands : Vector Nat kind.arity)
      (parameters : Vector (Parameter R) kind.parameterCount) (arguments : Vector R kind.parameterCount)
      (listed : .gate kind operands parameters ∈ operations)
      (resolved : parameters.mapM (Parameter.resolve lowering.resolver) = .ok arguments)
      (inside : ∀ operand ∈ operands.toList, operand < lowering.numberOfQubits) :
      Emits lowering operations (.apply ⟨kind.toGate arguments, operands.toList⟩)
  | idle (qubit : Nat) (inside : qubit < lowering.numberOfQubits) :
      Emits lowering operations (.apply ⟨.i, [qubit]⟩)

omit [Literal R] in
theorem Emits.mono {lowering : Lowering R} {fewer more : List (Operation R)} {instruction : Instruction R}
    (emits : Emits lowering fewer instruction) (among : ∀ operation ∈ fewer, operation ∈ more) :
    Emits lowering more instruction := by
  cases emits with
  | reset qubit inside => exact .reset qubit inside
  | gate kind operands parameters arguments listed resolved inside =>
    exact .gate kind operands parameters arguments (among _ listed) resolved inside
  | idle qubit inside => exact .idle qubit inside

omit [Scalar R] [Literal R] in
theorem emit_ok {lowering : Lowering R} {instruction : Instruction R} {emitted : List (Instruction R)}
    (ok : lowering.emit instruction = .ok emitted) :
    emitted = [instruction] ∧ ∀ qubit ∈ instruction.qubits, qubit < lowering.numberOfQubits := by
  unfold emit at ok
  cases checked : checkQubits lowering.numberOfQubits instruction.qubits with
  | error error => rw [checked] at ok; cases ok
  | ok result =>
    rw [checked] at ok
    exact ⟨(Except.ok.inj ok).symm, checkQubits_ok checked⟩

omit [Scalar R] [Literal R] in
theorem emit_inside (lowering : Lowering R) (instruction : Instruction R)
    (inside : ∀ qubit ∈ instruction.qubits, qubit < lowering.numberOfQubits) :
    lowering.emit instruction = .ok [instruction] := by
  have found : instruction.qubits.find? (lowering.numberOfQubits ≤ ·) = none := by
    simpa using inside
  rw [emit, checkQubits, found]
  rfl

omit [Scalar R] [Literal R] in
theorem resolve_literals {count : Nat} (resolver : Option (Resolver R)) (values : Vector R count) :
    (values.map Parameter.literal).mapM (Parameter.resolve resolver) = .ok values := by
  rw [Vector.mapM_map]
  have each : Parameter.resolve resolver ∘ Parameter.literal = fun value => pure value := rfl
  rw [each, Vector.mapM_pure, Vector.map_id']
  rfl

/-- A gate with literal parameters becomes one application. -/
theorem operation_literals (lowering : Lowering R) (unpadded : lowering.identityPadding = false)
    (kind : GateKind) (operands : Vector Nat kind.arity) (values : Vector R kind.parameterCount)
    (inside : ∀ operand ∈ operands.toList, operand < lowering.numberOfQubits) :
    lowering.operation (.gate kind operands (values.map .literal)) =
      .ok [.apply ⟨kind.toGate values, operands.toList⟩] := by
  have applied : Operation.application lowering.resolver (.gate kind operands (values.map .literal)) =
      .ok (some ⟨kind.toGate values, operands.toList⟩) := by
    rw [Operation.application_gate, resolve_literals]
    rfl
  have emitted := emit_inside lowering (.apply ⟨kind.toGate values, operands.toList⟩) inside
  simp only [Lowering.operation, applied, bind, Except.bind, emitted, idle, unpadded]
  rfl

theorem operation_gate (lowering : Lowering R) (kind : GateKind) (operands : Vector Nat kind.arity)
    (parameters : Vector (Parameter R) kind.parameterCount) :
    lowering.operation (.gate kind operands parameters) =
      parameters.mapM (Parameter.resolve lowering.resolver) >>= fun arguments =>
        (lowering.emit (.apply ⟨kind.toGate arguments, operands.toList⟩)).map
          (· ++ lowering.idle ⟨kind.toGate arguments, operands.toList⟩) := by
  simp only [Lowering.operation, Operation.application_gate]
  cases parameters.mapM (Parameter.resolve lowering.resolver) with
  | error error => rfl
  | ok arguments =>
    change (lowering.emit (.apply ⟨kind.toGate arguments, operands.toList⟩) >>= _) = Except.map _ _
    cases lowering.emit (.apply ⟨kind.toGate arguments, operands.toList⟩) <;> rfl

theorem emits_gate {lowering : Lowering R} {kind : GateKind} {operands : Vector Nat kind.arity}
    {parameters : Vector (Parameter R) kind.parameterCount} {instructions : List (Instruction R)}
    (lowered : lowering.operation (.gate kind operands parameters) = .ok instructions)
    {instruction : Instruction R} (member : instruction ∈ instructions) :
    Emits lowering [.gate kind operands parameters] instruction := by
  obtain ⟨application?, applied, lowered⟩ := ok_of_bind lowered
  rw [Operation.application_gate] at applied
  cases resolved : parameters.mapM (Parameter.resolve lowering.resolver) with
  | error error => rw [resolved] at applied; cases applied
  | ok arguments =>
    rw [resolved] at applied
    cases applied
    obtain ⟨emitted, checked, lowered⟩ := ok_of_bind lowered
    obtain ⟨rfl, inside⟩ := emit_ok checked
    cases lowered
    rcases List.mem_append.1 member with own | idle
    · rw [List.mem_singleton.1 own]
      exact .gate kind operands parameters arguments (List.mem_singleton_self _) resolved inside
    · unfold Lowering.idle at idle
      split at idle
      · obtain ⟨qubit, listed, rfl⟩ := List.mem_map.1 idle
        exact .idle qubit (List.mem_range.1 (List.mem_of_mem_filter listed))
      · cases idle

mutual

theorem emits_operation {lowering : Lowering R} {operation : Operation R} {instructions : List (Instruction R)}
    (lowered : lowering.operation operation = .ok instructions) {instruction : Instruction R}
    (member : instruction ∈ instructions) : Emits lowering operation.inlined instruction := by
  cases operation with
  | gate kind operands parameters => exact emits_gate lowered member
  | activeReset qubit =>
    obtain ⟨rfl, inside⟩ := emit_ok lowered
    rw [List.mem_singleton.1 member]
    exact .reset qubit (inside qubit (List.mem_singleton_self _))
  | loop repetitions body =>
    rw [Lowering.operation] at lowered
    obtain ⟨value, _, lowered⟩ := ok_of_bind lowered
    split at lowered
    · cases lowered
      cases member
    · obtain ⟨inner, loweredBody, lowered⟩ := ok_of_bind lowered
      cases lowered
      exact emits_body loweredBody (mem_of_mem_repeated member)
  | measure | define | startDecomposition | stopDecomposition | stopParallel | globalPhase =>
    cases lowered
    cases member
  | damping | conditional | repeatedMeasurement | setMeasurements => cases lowered

/-- Every instruction of a lowered body comes from one of its operations, with its qubits checked. -/
theorem emits_body {lowering : Lowering R} {body : List (Operation R)} {instructions : List (Instruction R)}
    (lowered : lowering.body body = .ok instructions) {instruction : Instruction R}
    (member : instruction ∈ instructions) : Emits lowering (Operation.inlinedBody body) instruction := by
  cases body with
  | nil =>
    cases lowered
    cases member
  | cons operation rest =>
    rw [Lowering.body] at lowered
    obtain ⟨first, loweredFirst, lowered⟩ := ok_of_bind lowered
    obtain ⟨others, loweredRest, lowered⟩ := ok_of_bind lowered
    cases lowered
    rw [Operation.inlinedBody]
    rcases List.mem_append.1 member with inFirst | inRest
    · exact (emits_operation loweredFirst inFirst).mono fun _ => List.mem_append_left _
    · exact (emits_body loweredRest inRest).mono fun _ => List.mem_append_right _

end

theorem program_ok {lowering : Lowering R} {circuit : Circuit R} {program : Program R}
    (lowered : lowering.program circuit = .ok program) :
    program.numberOfQubits = lowering.numberOfQubits ∧
      ∀ instruction ∈ program.instructions, Emits lowering circuit.inlined instruction := by
  unfold Lowering.program at lowered
  cases made : lowering.body circuit with
  | error error => rw [made] at lowered; cases lowered
  | ok instructions =>
    rw [made] at lowered
    cases lowered
    exact ⟨rfl, fun instruction member => emits_body made member⟩

end Lowering

section WellFormed
variable {R : Type} [Scalar R]

theorem GateKind.arity_toGate (kind : GateKind) (arguments : Vector R kind.parameterCount) :
    (kind.toGate arguments).arity = kind.arity := by
  cases kind <;> rfl

theorem GateKind.operator_toGate (kind : GateKind) (arguments : Vector R kind.parameterCount) :
    ∃ operator, (kind.toGate arguments).operator = .ok operator ∧
      operator.rows = Basis.size kind.arity ∧ operator.columns = Basis.size kind.arity := by
  cases kind <;> exact ⟨_, rfl, rfl, rfl⟩

/-- As many operands as the gate takes, all of them in a register of the given size, and a matrix
with a row and a column for each of their basis states. -/
structure Application.WellFormed (n : Nat) (application : Application R) : Prop where
  arity : application.operands.length = application.gate.arity
  shape : ∃ operator, application.gate.operator = .ok operator ∧
    operator.rows = Basis.size application.gate.arity ∧
    operator.columns = Basis.size application.gate.arity
  inside : ∀ operand ∈ application.operands, operand < n

def Instruction.WellFormed (n : Nat) : Instruction R → Prop
  | .apply application => application.WellFormed n
  | .reset qubits => ∀ qubit ∈ qubits, qubit < n

theorem Lowering.Emits.wellFormed {lowering : Lowering R} {operations : List (Operation R)}
    {instruction : Instruction R} (emits : Emits lowering operations instruction) :
    instruction.WellFormed lowering.numberOfQubits := by
  cases emits with
  | reset qubit inside => exact fun other member => List.mem_singleton.1 member ▸ inside
  | gate kind operands parameters arguments listed resolved inside =>
    refine ⟨?_, ?_, inside⟩
    · rw [GateKind.arity_toGate]
      simp
    · rw [GateKind.arity_toGate]
      exact GateKind.operator_toGate kind arguments
  | idle qubit inside =>
    exact ⟨rfl, ⟨_, rfl, rfl, rfl⟩, fun other member => List.mem_singleton.1 member ▸ inside⟩

end WellFormed
end CircuitRunner
