import CircuitRunner.Proofs.NestedOperation
import CircuitRunner.Proofs.Substitution
import CircuitRunner.Proofs.LoweredInstruction

/-! Which operations have a gate application. The tables that an application is put together from never miss, so
it is only refused to operations that engines have nothing for, and to gates with a parameter that has no value. -/
namespace CircuitRunner.Operation
variable {R : Type} [Scalar R] (resolver : Option (Resolver R))

section Outcome
omit [Scalar R]

/-- The operations that only the lowering of a whole circuit can deal with, and those that engines have nothing
for. -/
inductive Refused : Operation R → Prop
  | activeReset (qubit : Nat) : Refused (.activeReset qubit)
  | loop (repetitions : Parameter R) (body : List (Operation R)) : Refused (.loop repetitions body)
  | damping (qubit : Nat) (gateTime rate : Parameter R) : Refused (.damping qubit gateTime rate)
  | conditional (register : String) (index : Nat) (body : List (Operation R)) :
      Refused (.conditional register index body)
  | repeatedMeasurement (readout : String) (count : Nat) : Refused (.repeatedMeasurement readout count)
  | setMeasurements (readout : String) (count : Nat) : Refused (.setMeasurements readout count)

def isGate : Operation R → Bool
  | .gate .. => true
  | _ => false

def FirstUnresolved (operation : Operation R) (error : LoweringError) : Prop :=
  ∃ before parameter after, operation.parameters = before ++ parameter :: after ∧
    (∀ earlier ∈ before, ∃ value, earlier.2.resolve resolver = .ok value) ∧
    parameter.2.resolve resolver = .error error

theorem arguments_error_iff (operation : Operation R) (error : LoweringError) :
    operation.arguments resolver = .error error ↔ operation.FirstUnresolved resolver error :=
  mapM_error_iff

theorem FirstUnresolved.aboutParameter {operation : Operation R} {error : LoweringError}
    (first : operation.FirstUnresolved resolver error) : error.aboutParameter = true := by
  obtain ⟨_, parameter, _, _, _, refused⟩ := first
  exact Parameter.refused_of_resolve refused

end Outcome

theorem gate_error_iff (kind : GateKind) (operands : Vector Nat kind.arity)
    (parameters : Vector (Parameter R) kind.parameterCount) (error : LoweringError) :
    (Operation.gate kind operands parameters).application resolver = .error error ↔
      (Operation.gate kind operands parameters).FirstUnresolved resolver error := by
  rw [← arguments_error_iff, arguments_gate, application_gate]
  cases parameters.mapM (Parameter.resolve resolver) with
  | error other =>
    constructor <;> intro same <;> exact congrArg Except.error (Except.error.inj same)
  | ok arguments => constructor <;> intro failed <;> cases failed

theorem application_error_iff (operation : Operation R) (error : LoweringError) :
    operation.application resolver = .error error ↔
      operation.Refused ∧ error = .unsupportedOperation operation.tags ∨
      operation.isGate = true ∧ operation.FirstUnresolved resolver error := by
  cases operation with
  | gate kind operands parameters =>
    rw [gate_error_iff]
    constructor
    · intro first
      exact .inr ⟨rfl, first⟩
    · rintro (⟨refused, _⟩ | ⟨_, first⟩)
      · cases refused
      · exact first
  | measure | define | startDecomposition | stopDecomposition | stopParallel | globalPhase =>
    refine iff_of_false nofun ?_
    rintro (⟨refused, _⟩ | ⟨gate, _⟩)
    · cases refused
    · cases gate
  | activeReset | loop | damping | conditional | repeatedMeasurement | setMeasurements =>
    constructor
    · intro failed
      exact .inl ⟨by constructor, (Except.error.inj failed).symm⟩
    · rintro (⟨_, rfl⟩ | ⟨gate, _⟩)
      · rfl
      · cases gate

theorem application_none_iff (operation : Operation R) :
    operation.application resolver = .ok none ↔ operation.isGate = false ∧ ¬operation.Refused := by
  cases operation with
  | gate kind operands parameters =>
    refine iff_of_false (fun nothing => ?_) (fun other => Bool.noConfusion other.1)
    rw [application_gate] at nothing
    obtain ⟨_, _, impossible⟩ := ok_of_map nothing
    cases impossible
  | measure | define | startDecomposition | stopDecomposition | stopParallel | globalPhase =>
    exact iff_of_true rfl ⟨rfl, nofun⟩
  | activeReset | loop | damping | conditional | repeatedMeasurement | setMeasurements =>
    exact iff_of_false nofun fun other => other.2 (by constructor)

theorem gate_of_application {operation : Operation R} {application : Application R}
    (applied : operation.application resolver = .ok (some application)) :
    ∃ kind operands parameters arguments, operation = .gate kind operands parameters ∧
      parameters.mapM (Parameter.resolve resolver) = .ok arguments ∧
      application = ⟨kind.toGate arguments, operands.toList⟩ := by
  cases operation with
  | gate kind operands parameters =>
    rw [application_gate] at applied
    obtain ⟨arguments, resolved, made⟩ := ok_of_map applied
    exact ⟨kind, operands, parameters, arguments, rfl, resolved, (Option.some.inj made).symm⟩
  | _ => cases applied

theorem matrix_of_application {operation : Operation R} {application : Application R}
    (applied : operation.application resolver = .ok (some application))
    (generic : operation.loweringClass = .genericSingleQubitGate ∨ operation.loweringClass = .genericTwoQubitGate) :
    ∃ arguments operator, operation.arguments resolver = .ok arguments ∧
      operation.unitary arguments = .ok operator ∧
      application.gate = .matrix application.operands.length operator := by
  obtain ⟨kind, operands, parameters, arguments, rfl, resolved, rfl⟩ := gate_of_application resolver applied
  have unnamed : kind.isNative = false := by
    cases native : kind.isNative with
    | false => rfl
    | true =>
      rw [loweringClass_gate, native, if_pos rfl] at generic
      rcases generic with impossible | impossible <;> cases impossible
  obtain ⟨operator, found, engine⟩ := kind.toGate_of_generic unnamed arguments
  refine ⟨arguments.toList, operator, ?_, unitary_gate found operands parameters, ?_⟩
  · rw [arguments_gate, resolved]
    rfl
  · rw [engine, operands.length_toList]

/-- The refused operations fail with their tags, and gates with what is wrong with the first parameter that has no
value. No operand is missing, no matrix, and no parameter of an engine gate. All other gates have an application,
and all other operations nothing. An application acts on the involved qubits, takes as many operands as its gate,
and for a gate without a name has the matrix of the resolved parameters. -/
theorem application_by_tables (operation : Operation R) :
    (∀ error, operation.application resolver = .error error ↔
      operation.Refused ∧ error = .unsupportedOperation operation.tags ∨
      operation.isGate = true ∧ operation.FirstUnresolved resolver error) ∧
    ((∃ tags, operation.application resolver = .error (.unsupportedOperation tags)) ↔ operation.Refused) ∧
    (∀ name operand, operation.application resolver ≠ .error (.missingOperand name operand)) ∧
    (∀ cause, operation.application resolver ≠ .error (.circuit cause)) ∧
    (∀ fault, operation.application resolver ≠ .error (.faulty fault)) ∧
    (operation.application resolver = .ok none ↔ operation.isGate = false ∧ ¬operation.Refused) ∧
    ∀ application, operation.application resolver = .ok (some application) →
      (∃ qubits, operation.involvedQubits = .some qubits ∧
        ∀ qubit, qubit ∈ application.operands ↔ qubit ∈ qubits) ∧
      application.operands.length = application.gate.arity ∧
      (operation.loweringClass = .genericSingleQubitGate ∨ operation.loweringClass = .genericTwoQubitGate →
        ∃ arguments operator, operation.arguments resolver = .ok arguments ∧
          operation.unitary arguments = .ok operator ∧
          application.gate = .matrix application.operands.length operator) := by
  have errors := application_error_iff resolver operation
  have expected {error : LoweringError} (failed : operation.application resolver = .error error) :
      operation.Refused ∧ error = .unsupportedOperation operation.tags ∨ error.aboutParameter = true :=
    ((errors error).1 failed).imp_right fun first => first.2.aboutParameter
  refine ⟨errors, ⟨?_, ?_⟩, ?_, ?_, ?_, application_none_iff resolver operation, ?_⟩
  · rintro ⟨tags, failed⟩
    rcases expected failed with ⟨refused, _⟩ | other
    · exact refused
    · cases other
  · intro refused
    exact ⟨operation.tags, (errors _).2 (.inl ⟨refused, rfl⟩)⟩
  · intro name operand missing
    rcases expected missing with ⟨_, other⟩ | other <;> cases other
  · intro cause failed
    rcases expected failed with ⟨_, other⟩ | other <;> cases other
  · intro fault failed
    rcases expected failed with ⟨_, other⟩ | other <;> cases other
  · intro application applied
    have generic := matrix_of_application resolver applied
    obtain ⟨kind, operands, parameters, arguments, rfl, _, rfl⟩ := gate_of_application resolver applied
    refine ⟨⟨ascending operands.toList, ?_, fun qubit => mem_ascending.symm⟩, ?_, generic⟩
    · rw [involvedQubits, kind.involvedQubits_eq]
    · rw [kind.arity_toGate, operands.length_toList]

/-- A generic gate whose angle is a symbol, on qubits two and zero. -/
theorem application_by_tables_symbol :
    let resolver : Resolver Float := fun expression =>
      if expression = "a" then .ok 0.5 else .error (.unknownSymbol expression)
    let operation : Operation Float := .gate .xy #v[2, 0] #v[.symbol "a"]
    ∃ application arguments operator, operation.application (some resolver) = .ok (some application) ∧
      (∀ qubit, qubit ∈ application.operands ↔ qubit ∈ [0, 2]) ∧
      application.operands.length = application.gate.arity ∧
      operation.arguments (some resolver) = .ok arguments ∧ operation.unitary arguments = .ok operator ∧
      application.gate = .matrix application.operands.length operator := by
  intro resolver operation
  have found : ((operation.application (some resolver)).toOption.bind id).isSome = true := by
    decide +kernel
  cases applied : operation.application (some resolver) with
  | error error =>
    rw [applied] at found
    cases found
  | ok result =>
    rw [applied] at found
    obtain ⟨application, rfl⟩ := Option.isSome_iff_exists.1 found
    obtain ⟨_, _, _, _, _, _, yields⟩ := application_by_tables (some resolver) operation
    obtain ⟨⟨qubits, involved, members⟩, arity, generic⟩ := yields application applied
    obtain ⟨arguments, operator, resolved, computed, matrix⟩ := generic (.inr rfl)
    have listed : operation.involvedQubits = .some [0, 2] := rfl
    obtain rfl := InvolvedQubits.some.inj (listed.symm.trans involved)
    exact ⟨application, arguments, operator, rfl, members, arity, resolved, computed, matrix⟩

end CircuitRunner.Operation
