import CircuitRunner.Lowering
import CircuitRunner.Proofs.SucceedsWith
import CircuitRunner.Proofs.TableLookup

/-! The tables of the gates agree. Which operand stands in a role, how a parameter is called, which qubits are
involved, how a gate is lowered, what engine gate it becomes and what its matrix is are listed apart, gate by
gate. Every role and parameter that one table asks for is one that the others have, so a gate with resolved
parameters becomes an application to its operands in their order. -/
namespace CircuitRunner

theorem toList_eq_ofFn {α : Type} {n : Nat} (values : Vector α n) : values.toList = List.ofFn values.get := by
  apply List.ext_getElem
  · rw [values.length_toList, List.length_ofFn]
  · intro index _ _
    rw [List.getElem_ofFn, Vector.getElem_toList]
    rfl

namespace GateKind

section Fields

theorem nodup_parameterNames (kind : GateKind) : kind.parameterNames.Nodup := by
  cases kind <;> decide

/-- The operands are those in the roles of the gate. -/
theorem map_operandIn? (kind : GateKind) (operands : Vector Nat kind.arity) :
    kind.roles.map (kind.operandIn? · operands.toList) = operands.toList.map some := by
  rw [toList_eq_ofFn]
  cases kind <;> rfl

theorem named_eq {α : Type} (kind : GateKind) (values : Vector α kind.parameterCount) :
    kind.named values.toList = kind.parameterNames.zip values.toList := by
  rw [toList_eq_ofFn]
  cases kind <;> rfl

theorem map_snd_named {α : Type} (kind : GateKind) (values : Vector α kind.parameterCount) :
    (kind.named values.toList).map Prod.snd = values.toList := by
  rw [named_eq]
  exact List.map_snd_zip (Nat.le_of_eq values.length_toList)

theorem involvedQubits_eq (kind : GateKind) (operands : Vector Nat kind.arity) :
    kind.involvedQubits operands.toList = .some (ascending operands.toList) := by
  rw [toList_eq_ofFn]
  cases kind <;> rfl

end Fields

section Engine
variable {R : Type} [Scalar R]

def isNative : GateKind → Bool
  | .singleQubitGate | .sqrtPauliX | .invSqrtPauliX | .phaseShiftState0 | .rotateXY
  | .variableMSXX | .molmerSorensenXX | .xy | .pmInteraction => false
  | _ => true

def toGate : (kind : GateKind) → Vector R kind.parameterCount → Gate R
  | .rotateX, arguments => .rx (arguments.get ⟨0, Nat.zero_lt_one⟩)
  | .rotateY, arguments => .ry (arguments.get ⟨0, Nat.zero_lt_one⟩)
  | .rotateZ, arguments => .rz (arguments.get ⟨0, Nat.zero_lt_one⟩)
  | .hadamard, _ => .h
  | .pauliX, _ => .x
  | .pauliY, _ => .y
  | .pauliZ, _ => .z
  | .sGate, _ => .s
  | .tGate, _ => .t
  | .phaseShiftState1, arguments => .ph (arguments.get ⟨0, Nat.zero_lt_one⟩)
  | .identity, _ => .i
  | .cnot, _ => .cnot
  | .controlledPauliY, _ => .controlled .y
  | .controlledPauliZ, _ => .csign
  | .swap, _ => .swap
  | .iSwap, _ => .iswap
  | .controlledPhaseShift, arguments => .controlled (.ph (arguments.get ⟨0, Nat.zero_lt_one⟩))
  | .toffoli, _ => .ccnot
  | kind, arguments => .matrix kind.arity ((kind.unitary? arguments).getD (.tabulate 0 0 fun _ _ => 0))

theorem roles_of_generic (kind : GateKind) (generic : kind.isNative = false) :
    kind.roles = if kind.arity = 1 then [.qubit] else [.control, .target] := by
  cases kind with
  | singleQubitGate | sqrtPauliX | invSqrtPauliX | phaseShiftState0 | rotateXY | variableMSXX | molmerSorensenXX
  | xy | pmInteraction => rfl
  | rotateX | rotateY | rotateZ | hadamard | pauliX | pauliY | pauliZ | sGate | tGate | phaseShiftState1 | identity
  | cnot | controlledPauliY | controlledPauliZ | swap | iSwap | controlledPhaseShift | toffoli => cases generic

/-- A gate that engines have no name for becomes its matrix. -/
theorem toGate_of_generic (kind : GateKind) (generic : kind.isNative = false)
    (arguments : Vector R kind.parameterCount) :
    ∃ operator, kind.unitary? arguments = some operator ∧ kind.toGate arguments = .matrix kind.arity operator := by
  cases kind with
  | singleQubitGate | sqrtPauliX | invSqrtPauliX | phaseShiftState0 | rotateXY | variableMSXX | molmerSorensenXX
  | xy | pmInteraction => exact ⟨_, rfl, rfl⟩
  | rotateX | rotateY | rotateZ | hadamard | pauliX | pauliY | pauliZ | sGate | tGate | phaseShiftState1 | identity
  | cnot | controlledPauliY | controlledPauliZ | swap | iSwap | controlledPhaseShift | toffoli => cases generic

omit [Scalar R] in
/-- The gates with an entry in the gate table are the native ones. -/
theorem isSome_gateNamed? (kind : GateKind) :
    (gateNamed? kind.name : Option (GateEntry R)).isSome = kind.isNative := by
  cases kind <;> rfl

/-- An entry of the gate table asks for what the gate has, and makes its engine gate of it. -/
theorem of_gateNamed? {kind : GateKind} {entry : GateEntry R} (found : gateNamed? kind.name = some entry) :
    entry.qubits = kind.roles ∧ entry.parameters = kind.parameterNames ∧
      ∀ arguments : Vector R kind.parameterCount,
        entry.construct arguments.toList = .ok (kind.toGate arguments) := by
  simp only [toList_eq_ofFn]
  cases kind with
  | singleQubitGate | sqrtPauliX | invSqrtPauliX | phaseShiftState0 | rotateXY | variableMSXX | molmerSorensenXX
  | xy | pmInteraction => cases found
  | rotateX | rotateY | rotateZ | hadamard | pauliX | pauliY | pauliZ | sGate | tGate | phaseShiftState1 | identity
  | cnot | controlledPauliY | controlledPauliZ | swap | iSwap | controlledPhaseShift | toffoli =>
    cases found
    exact ⟨rfl, rfl, fun _ => rfl⟩

end Engine
end GateKind

namespace Operation
variable {R : Type}

theorem operandsIn_ok {operation : Operation R} {roles : List QubitRole} {qubits : List Nat}
    (present : roles.map operation.qubit? = qubits.map some) : operation.operandsIn roles = .ok qubits := by
  induction roles generalizing qubits with
  | nil =>
    rw [List.map_eq_nil_iff.1 present.symm]
    rfl
  | cons role roles ih =>
    obtain _ | ⟨qubit, qubits⟩ := qubits
    · cases present
    obtain ⟨first, rest⟩ := List.cons.inj present
    have others := ih rest
    rw [operandsIn] at others ⊢
    rw [List.mapM_cons, first, others]
    rfl

section Gates
variable (kind : GateKind) (operands : Vector Nat kind.arity) (parameters : Vector (Parameter R) kind.parameterCount)
  (resolver : Option (Resolver R))

theorem operandsIn_gate : operandsIn kind.roles (.gate kind operands parameters) = .ok operands.toList :=
  operandsIn_ok (kind.map_operandIn? operands)

theorem argumentsNamed_gate : argumentsNamed resolver kind.parameterNames (.gate kind operands parameters) =
    (parameters.mapM (Parameter.resolve resolver)).map Vector.toList := by
  rw [toList_mapM]
  refine mapM_zip parameters.length_toList.symm fun pair member => ?_
  rw [parameter?, Operation.parameters, kind.named_eq, Table.lookup_zip kind.nodup_parameterNames member]

theorem arguments_gate : (Operation.gate kind operands parameters).arguments resolver =
    (parameters.mapM (Parameter.resolve resolver)).map Vector.toList := by
  have along : (fun parameter : String × Parameter R => parameter.2.resolve resolver) =
      Parameter.resolve resolver ∘ Prod.snd := rfl
  rw [toList_mapM, arguments, Operation.parameters, along, ← List.mapM_map, kind.map_snd_named]

variable [Scalar R]

omit [Scalar R] in
theorem loweringClass_gate : (Operation.gate kind operands parameters).loweringClass =
    if kind.isNative then .named kind.name
    else if kind.arity = 1 then .genericSingleQubitGate
    else .genericTwoQubitGate := by
  cases kind <;> rfl

theorem unitary_gate {kind : GateKind} {arguments : Vector R kind.parameterCount}
    {operator : Operator (ComplexNumber R)} (found : kind.unitary? arguments = some operator)
    (operands : Vector Nat kind.arity) (parameters : Vector (Parameter R) kind.parameterCount) :
    (Operation.gate kind operands parameters).unitary arguments.toList = .ok operator := by
  have fits : arguments.toList.length = kind.parameterCount := arguments.length_toList
  have same : (⟨arguments.toList.toArray, fits⟩ : Vector R kind.parameterCount) = arguments := rfl
  have expected : (Operation.gate kind operands parameters).parameters.length = arguments.toList.length := by
    rw [Operation.parameters, ← List.length_map Prod.snd, kind.map_snd_named, parameters.length_toList, fits]
  rw [unitary, if_neg (not_not.2 expected)]
  simp only [dif_pos fits, same, found]

theorem nativeApplication_gate {entry : GateEntry R} (found : gateNamed? kind.name = some entry) :
    nativeApplication resolver entry (.gate kind operands parameters) =
      (parameters.mapM (Parameter.resolve resolver)).map fun arguments =>
        ⟨kind.toGate arguments, operands.toList⟩ := by
  obtain ⟨qubits, names, construct⟩ := GateKind.of_gateNamed? found
  rw [nativeApplication, qubits, names, argumentsNamed_gate, operandsIn_gate]
  cases parameters.mapM (Parameter.resolve resolver) with
  | error error => rfl
  | ok arguments =>
    change ((entry.construct arguments.toList).mapError _ >>= _) = _
    rw [construct]
    rfl

theorem genericApplication_gate (generic : kind.isNative = false) :
    genericApplication resolver kind.roles (.gate kind operands parameters) =
      (parameters.mapM (Parameter.resolve resolver)).map fun arguments =>
        ⟨kind.toGate arguments, operands.toList⟩ := by
  rw [genericApplication, arguments_gate, operandsIn_gate]
  cases parameters.mapM (Parameter.resolve resolver) with
  | error error => rfl
  | ok arguments =>
    obtain ⟨operator, found, engine⟩ := kind.toGate_of_generic generic arguments
    change (((Operation.gate kind operands parameters).unitary arguments.toList).mapError _ >>= _) =
      Except.ok (Application.mk (kind.toGate arguments) operands.toList)
    rw [unitary_gate found, engine]
    rfl

/-- No table misses: with its parameters resolved, a gate is applied to its operands. -/
theorem application_gate : (Operation.gate kind operands parameters).application resolver =
    (parameters.mapM (Parameter.resolve resolver)).map fun arguments =>
      some ⟨kind.toGate arguments, operands.toList⟩ := by
  have both {α β γ : Type} (attempt : Except LoweringError α) (first : α → β) (second : β → γ) :
      (attempt.map first).map second = attempt.map (second ∘ first) := by
    cases attempt <;> rfl
  have own := loweringClass_gate kind operands parameters
  cases native : kind.isNative with
  | true =>
    rw [native, if_pos rfl] at own
    obtain ⟨entry, found⟩ := Option.isSome_iff_exists.1 ((kind.isSome_gateNamed? (R := R)).trans native)
    simp only [application, own, found, nativeApplication_gate kind operands parameters resolver found]
    exact both _ _ _
  | false =>
    have generic := genericApplication_gate kind operands parameters resolver native
    rw [kind.roles_of_generic native] at generic
    rw [native, if_neg Bool.false_ne_true] at own
    by_cases single : kind.arity = 1
    · rw [if_pos single] at own generic
      simp only [application, own, generic]
      exact both _ _ _
    · rw [if_neg single] at own generic
      simp only [application, own, generic]
      exact both _ _ _

end Gates
end Operation
end CircuitRunner
