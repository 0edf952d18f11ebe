import CircuitRunner.Double
import CircuitRunner.Proofs.NestedOperation
import CircuitRunner.Proofs.StoredValue

/-! Reading a stored circuit back. Every operation is read back from its stored form if its numbers
fit their words and its literals are finite, and is refused otherwise; what can be read from a tree of
finite numbers is of that kind. -/
namespace CircuitRunner

variable {R : Type} [Literal R]

theorem stores_pair : Stores (R := R) (fun pair : Nat × Nat => .list [.ofNat pair.1, .ofNat pair.2])
    Operation.decodePair (fun pair => isWord pair.1 && isWord pair.2) where
  back pair := by
    change (decodeIndex (Value.ofNat pair.1)).bind (fun first =>
      (decodeIndex (Value.ofNat pair.2)).bind fun second => some (first, second)) = _
    simp only [stores_index.back, guard_bind]
    simp only [Option.guard, Bool.and_eq_true, ite_and]
  sound {value pair} finite ok := by
    unfold Operation.decodePair at ok
    split at ok
    · have finiteItems := Value.finite_list.1 finite
      obtain ⟨first, isFirst, ok⟩ := Option.bind_eq_some_iff.1 ok
      obtain ⟨second, isSecond, same⟩ := Option.bind_eq_some_iff.1 ok
      cases same
      have firstFits := stores_index.sound (finiteItems _ (by simp)) isFirst
      have secondFits := stores_index.sound (finiteItems _ (by simp)) isSecond
      exact Bool.and_eq_true_iff.2 ⟨firstFits, secondFits⟩
    · cases ok

namespace Operation

def words : Operation R → List Nat
  | .gate _ operands _ => operands.toList
  | .measure qubit _ index => [qubit, index]
  | .define definition => [definition.length]
  | .activeReset qubit | .damping qubit _ _ => [qubit]
  | .startDecomposition qubits reordering => qubits ++ reordering.flatMap fun pair => [pair.1, pair.2]
  | .stopDecomposition qubits | .stopParallel qubits _ => qubits
  | .conditional _ index _ => [index]
  | .repeatedMeasurement _ count | .setMeasurements _ count => [count]
  | .loop .. | .globalPhase _ => []

def isStorable (operation : Operation R) : Bool :=
  operation.words.all isWord && operation.parameters.all (·.2.isFinite)

theorem guard_isStorable (operation : Operation R) :
    Option.guard isStorable operation = if operation.words.all isWord then
      if operation.parameters.all (·.2.isFinite) then some operation else none else none := by
  simp only [Option.guard, isStorable, Bool.and_eq_true, ite_and]

end Operation

namespace GateKind

theorem nodup_fieldNames (kind : GateKind) : kind.fieldNames.Nodup := by
  cases kind <;> decide

end GateKind

namespace Operation

theorem decodeFlat_gate (kind : GateKind) (content : Value R) :
    decodeFlat kind.name content = decodeGate kind content := by
  cases kind <;> rfl

theorem all_parameters_gate (kind : GateKind) (operands : Vector Nat kind.arity)
    (values : Vector (Parameter R) kind.parameterCount) :
    (gate kind operands values).parameters.all (·.2.isFinite) = values.toList.all Parameter.isFinite := by
  calc (kind.named values.toList).all (·.2.isFinite)
      = ((kind.named values.toList).map Prod.snd).all Parameter.isFinite := by
        rw [List.all_map]
        rfl
    _ = values.toList.all Parameter.isFinite := by rw [kind.map_snd_named]

theorem decodeGate_back (kind : GateKind) (operands : Vector Nat kind.arity)
    (values : Vector (Parameter R) kind.parameterCount) :
    decodeGate kind (encodeContent (gate kind operands values)) =
      Option.guard isStorable (gate kind operands values) := by
  have operandCount : (operands.toList.map (Value.ofNat (R := R))).length = kind.arity := by simp
  have stored : (encodeContent (gate kind operands values)).named? kind.fieldNames =
      some (operands.toList.map .ofNat ++ values.toList.map Parameter.encode) := by
    rw [encodeContent]
    refine Value.named?_zip kind.nodup_fieldNames ?_
    simp only [GateKind.fieldNames, List.length_append, List.length_map, Vector.length_toList]
    rfl
  have front : (operands.toList.map (Value.ofNat (R := R))).mapM decodeIndex =
      Option.guard (·.all isWord) operands.toList := mapM_guard fun index _ => stores_index.back index
  have rest : (values.toList.map Parameter.encode).mapM Parameter.decode =
      Option.guard (·.all Parameter.isFinite) values.toList := mapM_guard fun value _ => Parameter.stores.back value
  unfold decodeGate
  simp only [stored, Option.bind_eq_bind, Option.bind_some, List.take_left' operandCount,
    List.drop_left' operandCount, front, rest, guard_bind]
  rw [dif_pos operands.length_toList, dif_pos values.length_toList, guard_isStorable, all_parameters_gate]
  rfl

def isFlat : Operation R → Bool
  | .loop .. | .conditional .. => false
  | _ => true

theorem decodeFlat_back {operation : Operation R} (flat : operation.isFlat = true) :
    decodeFlat operation.name (encodeContent operation) = Option.guard isStorable operation := by
  rw [guard_isStorable]
  cases operation with
  | gate kind operands values =>
    rw [← guard_isStorable]
    exact (decodeFlat_gate kind _).trans (decodeGate_back kind operands values)
  | measure qubit readout index =>
    rw [encodeContent]
    change (decodeIndex (Value.ofNat qubit)).bind (fun qubit =>
      (decodeIndex (Value.ofNat index)).bind fun index => some (measure qubit readout index)) = _
    simp [stores_index.back, words, parameters, ite_and]
  | define definition =>
    obtain ⟨kind, name, length, isOutput⟩ := definition
    have byKind : decodeFlat kind.definitionTag (encodeDefinition (R := R) ⟨kind, name, length, isOutput⟩) =
        (decodeIndex (Value.ofNat (R := R) length)).bind fun length =>
          some (define ⟨kind, name, length, isOutput⟩) := by
      cases kind <;> rfl
    rw [encodeContent]
    refine byKind.trans ?_
    simp [stores_index.back, words, parameters]
  | activeReset qubit =>
    rw [encodeContent]
    change (decodeIndex (Value.ofNat qubit)).bind (fun qubit => some (activeReset qubit)) = _
    simp [stores_index.back, words, parameters]
  | startDecomposition qubits reordering =>
    rw [encodeContent]
    change (Value.listOf? decodeIndex (.list (qubits.map Value.ofNat))).bind (fun qubits =>
      (Value.listOf? decodePair (.list (reordering.map fun pair => .list [.ofNat pair.1, .ofNat pair.2]))).bind
        fun reordering => some (startDecomposition qubits reordering)) = _
    rw [stores_index.list.back, stores_pair.list.back]
    simp only [guard_bind, words, parameters, List.all_append, List.all_flatMap, List.all_cons, List.all_nil,
      Bool.and_true, Bool.and_eq_true, ite_and, if_true]
  | stopDecomposition qubits =>
    rw [encodeContent]
    change (Value.listOf? decodeIndex (.list (qubits.map Value.ofNat))).bind
      (fun qubits => some (stopDecomposition qubits)) = _
    rw [stores_index.list.back]
    simp [words, parameters]
  | stopParallel qubits time =>
    rw [encodeContent]
    change (Value.listOf? decodeIndex (.list (qubits.map Value.ofNat))).bind (fun qubits =>
      (Parameter.decode time.encode).bind fun time => some (stopParallel qubits time)) = _
    rw [stores_index.list.back]
    simp [Parameter.stores.back, words, parameters]
  | globalPhase phase =>
    rw [encodeContent]
    change (Parameter.decode phase.encode).bind (fun phase => some (globalPhase phase)) = _
    simp [Parameter.stores.back, words, parameters]
  | damping qubit time rate =>
    rw [encodeContent]
    change (decodeIndex (Value.ofNat qubit)).bind (fun qubit => (Parameter.decode time.encode).bind fun time =>
      (Parameter.decode rate.encode).bind fun rate => some (damping qubit time rate)) = _
    simp [stores_index.back, Parameter.stores.back, words, parameters, ite_and]
  | repeatedMeasurement readout count =>
    rw [encodeContent]
    change (decodeIndex (Value.ofNat count)).bind (fun count => some (repeatedMeasurement readout count)) = _
    simp [stores_index.back, words, parameters]
  | setMeasurements readout count =>
    rw [encodeContent]
    change (decodeIndex (Value.ofNat count)).bind (fun count => some (setMeasurements readout count)) = _
    simp [stores_index.back, words, parameters]
  | loop | conditional => cases flat

theorem decodeGate_sound {kind : GateKind} {content : Value R} (finite : content.Finite) {operation : Operation R}
    (ok : decodeGate kind content = some operation) : operation.isFlat = true ∧ operation.isStorable = true := by
  unfold decodeGate at ok
  obtain ⟨fields, named, ok⟩ := Option.bind_eq_some_iff.1 ok
  obtain ⟨operands, areOperands, ok⟩ := Option.bind_eq_some_iff.1 ok
  obtain ⟨parameters, areParameters, ok⟩ := Option.bind_eq_some_iff.1 ok
  have finiteFields := finite.of_named named
  have fit : operands.all isWord = true :=
    stores_index.sound_mapM (fun field member => finiteFields field (List.mem_of_mem_take member)) areOperands
  have written : parameters.all Parameter.isFinite = true :=
    Parameter.stores.sound_mapM (fun field member => finiteFields field (List.mem_of_mem_drop member)) areParameters
  split at ok
  · split at ok
    · cases ok
      refine ⟨rfl, Bool.and_eq_true_iff.2 ⟨fit, ?_⟩⟩
      rw [all_parameters_gate]
      exact written
    · cases ok
  · cases ok

theorem decodeDefinition_sound {kind : RegisterKind} {content : Value R} (finite : content.Finite)
    {operation : Operation R} (ok : decodeDefinition kind content = some operation) :
    operation.isFlat = true ∧ operation.isStorable = true := by
  obtain ⟨fields, finite, ok⟩ := finite.of_reading ok
  split at ok
  · obtain ⟨name, -, ok⟩ := Option.bind_eq_some_iff.1 ok
    obtain ⟨length, isLength, ok⟩ := Option.bind_eq_some_iff.1 ok
    obtain ⟨isOutput, -, ok⟩ := Option.bind_eq_some_iff.1 ok
    cases ok
    have lengthFits := stores_index.sound (finite _ (by simp)) isLength
    simp [isFlat, isStorable, words, parameters, lengthFits]
  · cases ok

theorem decodeCounted_sound {build : String → Nat → Operation R} {content : Value R} (finite : content.Finite)
    {operation : Operation R} (ok : decodeCounted build content = some operation) :
    ∃ readout count, isWord count = true ∧ operation = build readout count := by
  obtain ⟨fields, finite, ok⟩ := finite.of_reading ok
  split at ok
  · obtain ⟨readout, -, ok⟩ := Option.bind_eq_some_iff.1 ok
    obtain ⟨count, isCount, ok⟩ := Option.bind_eq_some_iff.1 ok
    cases ok
    exact ⟨readout, count, stores_index.sound (finite _ (by simp)) isCount, rfl⟩
  · cases ok

theorem decodeFlat_sound {tag : String} {content : Value R} (finite : content.Finite) {operation : Operation R}
    (ok : decodeFlat tag content = some operation) : operation.isFlat = true ∧ operation.isStorable = true := by
  unfold decodeFlat at ok
  split at ok
  · obtain ⟨fields, finite, ok⟩ := finite.of_reading ok
    split at ok
    · obtain ⟨qubit, isQubit, ok⟩ := Option.bind_eq_some_iff.1 ok
      obtain ⟨readout, -, ok⟩ := Option.bind_eq_some_iff.1 ok
      obtain ⟨index, isIndex, ok⟩ := Option.bind_eq_some_iff.1 ok
      cases ok
      have qubitFits := stores_index.sound (finite _ (by simp)) isQubit
      have indexFits := stores_index.sound (finite _ (by simp)) isIndex
      simp [isFlat, isStorable, words, parameters, qubitFits, indexFits]
    · cases ok
  · exact decodeDefinition_sound finite ok
  · exact decodeDefinition_sound finite ok
  · exact decodeDefinition_sound finite ok
  · obtain ⟨fields, finite, ok⟩ := finite.of_reading ok
    split at ok
    · obtain ⟨qubit, isQubit, ok⟩ := Option.bind_eq_some_iff.1 ok
      cases ok
      have qubitFits := stores_index.sound (finite _ (by simp)) isQubit
      simp [isFlat, isStorable, words, parameters, qubitFits]
    · cases ok
  · obtain ⟨fields, finite, ok⟩ := finite.of_reading ok
    split at ok
    · obtain ⟨qubits, areQubits, ok⟩ := Option.bind_eq_some_iff.1 ok
      obtain ⟨reordering, isReordering, ok⟩ := Option.bind_eq_some_iff.1 ok
      cases ok
      have qubitsFit := stores_index.list.sound (finite _ (by simp)) areQubits
      have pairsFit := stores_pair.list.sound (finite _ (by simp)) isReordering
      simp only [isFlat, isStorable, words, parameters, List.all_append, List.all_flatMap, List.all_cons,
        List.all_nil, Bool.and_true, qubitsFit, pairsFit, and_self]
    · cases ok
  · obtain ⟨fields, finite, ok⟩ := finite.of_reading ok
    split at ok
    · obtain ⟨qubits, areQubits, ok⟩ := Option.bind_eq_some_iff.1 ok
      cases ok
      have qubitsFit := stores_index.list.sound (finite _ (by simp)) areQubits
      simp only [isFlat, isStorable, words, parameters, List.all_nil, qubitsFit, Bool.and_self, and_self]
    · cases ok
  · obtain ⟨fields, finite, ok⟩ := finite.of_reading ok
    split at ok
    · obtain ⟨qubits, areQubits, ok⟩ := Option.bind_eq_some_iff.1 ok
      obtain ⟨time, isTime, ok⟩ := Option.bind_eq_some_iff.1 ok
      cases ok
      have qubitsFit := stores_index.list.sound (finite _ (by simp)) areQubits
      have timeFinite := Parameter.stores.sound (finite _ (by simp)) isTime
      simp only [isFlat, isStorable, words, parameters, List.all_cons, List.all_nil, qubitsFit, timeFinite,
        Bool.and_self, and_self]
    · cases ok
  · obtain ⟨fields, finite, ok⟩ := finite.of_reading ok
    split at ok
    · obtain ⟨phase, isPhase, ok⟩ := Option.bind_eq_some_iff.1 ok
      cases ok
      have phaseFinite := Parameter.stores.sound (finite _ (by simp)) isPhase
      simp [isFlat, isStorable, words, parameters, phaseFinite]
    · cases ok
  · obtain ⟨fields, finite, ok⟩ := finite.of_reading ok
    split at ok
    · obtain ⟨qubit, isQubit, ok⟩ := Option.bind_eq_some_iff.1 ok
      obtain ⟨time, isTime, ok⟩ := Option.bind_eq_some_iff.1 ok
      obtain ⟨rate, isRate, ok⟩ := Option.bind_eq_some_iff.1 ok
      cases ok
      have qubitFits := stores_index.sound (finite _ (by simp)) isQubit
      have timeFinite := Parameter.stores.sound (finite _ (by simp)) isTime
      have rateFinite := Parameter.stores.sound (finite _ (by simp)) isRate
      simp [isFlat, isStorable, words, parameters, qubitFits, timeFinite, rateFinite]
    · cases ok
  · obtain ⟨readout, count, countFits, rfl⟩ := decodeCounted_sound finite ok
    simp [isFlat, isStorable, words, parameters, countFits]
  · obtain ⟨readout, count, countFits, rfl⟩ := decodeCounted_sound finite ok
    simp [isFlat, isStorable, words, parameters, countFits]
  · obtain ⟨kind, -, ok⟩ := Option.bind_eq_some_iff.1 ok
    exact decodeGate_sound finite ok

omit [Literal R] in
theorem nested_of_isFlat {operation : Operation R} (flat : operation.isFlat = true) :
    operation.nested = [operation] := by
  cases operation with
  | loop | conditional => cases flat
  | _ => rfl

theorem decode_eq_flat {tag : String} (notLoop : tag ≠ "PragmaLoop") (notConditional : tag ≠ "PragmaConditional")
    (content : Value R) : decode (.record [(tag, content)]) = decodeFlat tag content := by
  rw [decode, if_neg notLoop, if_neg notConditional]

omit [Literal R] in
theorem name_of_isFlat {operation : Operation R} (flat : operation.isFlat = true) :
    operation.name ≠ "PragmaLoop" ∧ operation.name ≠ "PragmaConditional" := by
  cases operation with
  | gate kind =>
    change kind.name ≠ _ ∧ kind.name ≠ _
    cases kind <;> decide
  | define definition =>
    change definition.kind.definitionTag ≠ _ ∧ definition.kind.definitionTag ≠ _
    cases definition.kind <;> decide
  | loop | conditional => cases flat
  | _ => exact ⟨by simp [name], by simp [name]⟩

theorem decode_loop (repetitions circuit : Value R) :
    decode (.record [("PragmaLoop", .record [("repetitions", repetitions), ("circuit", circuit)])]) =
      (Parameter.decode repetitions).bind fun repetitions =>
        (decodeCircuit circuit).bind fun body => some (.loop repetitions body) := by
  rw [decode]
  rfl

theorem decode_conditional (register : String) (index circuit : Value R) :
    decode (.record [("PragmaConditional", .record [("condition_register", .text register),
      ("condition_index", index), ("circuit", circuit)])]) =
      (decodeIndex index).bind fun index =>
        (decodeCircuit circuit).bind fun body => some (.conditional register index body) := by
  rw [decode]
  rfl

theorem decodeCircuit_eq (value : Value R) : decodeCircuit value =
    match value.fields? ["operations"] with
    | some [.list operations] => operations.mapM decode
    | _ => none := by
  rw [decodeCircuit]
  split
  · rename_i operations found
    rw [found]
    exact (List.mapM_subtype fun _ _ => rfl).trans (congrArg _ List.unattach_attach)
  · rename_i other
    split
    · rename_i operations found
      exact absurd found (other operations)
    · rfl

theorem decodeCircuit_record (items : List (Value R)) :
    decodeCircuit (.record [("operations", .list items)]) = items.mapM decode :=
  decodeCircuit_eq _

theorem decodeCircuit_list (items : List (Value R)) :
    decodeCircuit (.list [.list items]) = items.mapM decode :=
  decodeCircuit_eq _

theorem decode_encode_flat {operation : Operation R} (flat : operation.isFlat = true) :
    decode operation.encode = Option.guard (·.nested.all isStorable) operation := by
  obtain ⟨notLoop, notConditional⟩ := name_of_isFlat flat
  rw [encode, decode_eq_flat notLoop notConditional, decodeFlat_back flat]
  simp only [Option.guard, nested_of_isFlat flat, List.all_cons, List.all_nil, Bool.and_true]

mutual

theorem decode_encode (operation : Operation R) :
    decode operation.encode = Option.guard (·.nested.all isStorable) operation := by
  cases operation with
  | loop repetitions body =>
    have inBody := decodeBody_encodeBody body
    rw [encode, encodeContent]
    refine (decode_loop _ _).trans ?_
    simp only [Parameter.stores.back, decodeCircuit_record, inBody, guard_bind]
    simp only [Option.guard, nested, List.all_cons, isStorable, words, parameters, List.all_nil, Bool.and_true,
      Bool.true_and, Bool.and_eq_true, ite_and]
  | conditional register index body =>
    have inBody := decodeBody_encodeBody body
    rw [encode, encodeContent]
    refine (decode_conditional _ _ _).trans ?_
    simp only [stores_index.back, decodeCircuit_record, inBody, guard_bind]
    simp only [Option.guard, nested, List.all_cons, isStorable, words, parameters, List.all_nil, Bool.and_true,
      Bool.and_eq_true, ite_and]
  | _ => exact decode_encode_flat rfl

theorem decodeBody_encodeBody (body : List (Operation R)) :
    (encodeBody body).mapM decode = Option.guard (fun body => (nestedBody body).all isStorable) body := by
  cases body with
  | nil =>
    rw [encodeBody]
    rfl
  | cons operation rest =>
    have first := decode_encode operation
    have others := decodeBody_encodeBody rest
    simp only [encodeBody, List.mapM_cons, Option.bind_eq_bind, Option.pure_def, first, others, guard_bind]
    simp only [Option.guard, nestedBody, List.all_append, Bool.and_eq_true, ite_and]

end

/-- What is read is storable in itself, and its body, if it has one, was read from a smaller tree. -/
theorem decode_cases {value : Value R} (finite : value.Finite) {operation : Operation R}
    (ok : decode value = some operation) : operation.isStorable = true ∧ (operation.nested = [operation] ∨
      ∃ circuit body, sizeOf circuit < sizeOf value ∧ circuit.Finite ∧ decodeCircuit circuit = some body ∧
        operation.nested = operation :: nestedBody body) := by
  unfold decode at ok
  split at ok
  · rename_i tag content
    have finiteContent : content.Finite := finite.of_variant rfl
    have inside {circuit : Value R} (smaller : sizeOf circuit < sizeOf content) :
        sizeOf circuit < sizeOf (Value.record [(tag, content)]) := by
      simp
      omega
    split at ok
    · split at ok
      · rename_i repetitions circuit found
        have finiteFields := finiteContent.of_named found
        obtain ⟨count, isCount, ok⟩ := Option.bind_eq_some_iff.1 ok
        obtain ⟨body, isBody, ok⟩ := Option.bind_eq_some_iff.1 ok
        cases ok
        have countFinite := Parameter.stores.sound (finiteFields repetitions (by simp)) isCount
        refine ⟨by simp [isStorable, words, parameters, countFinite], .inr ⟨circuit, body, ?_, ?_, isBody, rfl⟩⟩
        · exact inside (Value.sizeOf_lt_of_mem_named circuit found (by simp))
        · exact finiteFields circuit (by simp)
      · cases ok
    · split at ok
      · split at ok
        · rename_i register index circuit found
          have finiteFields := finiteContent.of_named found
          obtain ⟨name, -, ok⟩ := Option.bind_eq_some_iff.1 ok
          obtain ⟨entry, isEntry, ok⟩ := Option.bind_eq_some_iff.1 ok
          obtain ⟨body, isBody, ok⟩ := Option.bind_eq_some_iff.1 ok
          cases ok
          have entryFits := stores_index.sound (finiteFields index (by simp)) isEntry
          refine ⟨by simp [isStorable, words, parameters, entryFits], .inr ⟨circuit, body, ?_, ?_, isBody, rfl⟩⟩
          · exact inside (Value.sizeOf_lt_of_mem_named circuit found (by simp))
          · exact finiteFields circuit (by simp)
        · cases ok
      · obtain ⟨flat, storable⟩ := decodeFlat_sound finiteContent ok
        exact ⟨storable, .inl (nested_of_isFlat flat)⟩
  · cases ok

mutual

theorem decode_sound {value : Value R} (finite : value.Finite) {operation : Operation R}
    (ok : decode value = some operation) : operation.nested.all isStorable = true := by
  obtain ⟨storable, alone | ⟨circuit, body, smaller, finiteCircuit, isBody, entered⟩⟩ := decode_cases finite ok
  · rw [alone, List.all_cons, storable, List.all_nil, Bool.and_self]
  · have inBody := decodeCircuit_sound finiteCircuit isBody
    rw [entered, List.all_cons, storable, inBody, Bool.and_self]
termination_by sizeOf value

theorem decodeCircuit_sound {value : Value R} (finite : value.Finite) {body : List (Operation R)}
    (ok : decodeCircuit value = some body) : (nestedBody body).all isStorable = true := by
  rw [decodeCircuit_eq] at ok
  split at ok
  · rename_i items found
    have finiteItems := Value.finite_list.1 (finite.of_fields found (.list items) List.mem_cons_self)
    refine List.all_eq_true.2 fun inner inside => ?_
    obtain ⟨operation, inBody, within⟩ := mem_nestedBody.1 inside
    obtain ⟨item, inItems, isOperation⟩ := mem_of_mapM_some ok inBody
    have smaller : sizeOf item < sizeOf value := by
      have := Value.sizeOf_lt_of_mem_fields (.list items) found List.mem_cons_self
      have := List.sizeOf_lt_of_mem inItems
      simp at *
      omega
    have storable := decode_sound (finiteItems item inItems) isOperation
    exact List.all_eq_true.1 storable inner within
  · cases ok
termination_by sizeOf value

end

end Operation

namespace Circuit

def FitsWords (circuit : Circuit R) : Prop :=
  ∀ operation ∈ circuit.nested, ∀ word ∈ operation.words, word < Nat.pow 2 64

def FiniteLiterals (circuit : Circuit R) : Prop :=
  ∀ operation ∈ circuit.nested, ∀ parameter ∈ operation.parameters, parameter.2.isFinite = true

theorem all_isStorable_iff {circuit : Circuit R} :
    circuit.nested.all Operation.isStorable = true ↔ circuit.FitsWords ∧ circuit.FiniteLiterals := by
  simp [FitsWords, FiniteLiterals, Operation.isStorable, isWord, forall_and]

theorem decode_encode_eq (circuit : Circuit R) :
    decode circuit.encode = Option.guard (·.nested.all Operation.isStorable) circuit :=
  (Operation.decodeCircuit_record _).trans (Operation.decodeBody_encodeBody circuit)

/-- A circuit is read back from its stored form if its literals are finite, and cannot be read back
otherwise; the operations alone, without the name of their field, read the same. So reading again what was
read from any tree of finite numbers changes nothing. -/
theorem stored_form_faithful :
    (∀ circuit : Circuit R, circuit.FitsWords →
      (circuit.FiniteLiterals → decode circuit.encode = some circuit) ∧
      (¬ circuit.FiniteLiterals → decode circuit.encode = none) ∧
      decode (.list [.list (Operation.encodeBody circuit)]) = decode circuit.encode) ∧
    ∀ (tree : Value R) (circuit : Circuit R), tree.Finite → decode tree = some circuit →
      decode circuit.encode = some circuit := by
  refine ⟨fun circuit fits => ⟨?_, ?_, ?_⟩, ?_⟩
  · intro finite
    rw [decode_encode_eq]
    exact Option.guard_pos (all_isStorable_iff.2 ⟨fits, finite⟩)
  · intro infinite
    rw [decode_encode_eq, Option.guard_eq_none_iff, Bool.eq_false_iff]
    exact fun storable => infinite (all_isStorable_iff.1 storable).2
  · exact (Operation.decodeCircuit_list _).trans (Operation.decodeCircuit_record _).symm
  · intro tree circuit finite ok
    rw [decode_encode_eq]
    exact Option.guard_pos (Operation.decodeCircuit_sound finite ok)

/-- A phase inside a conditional inside a loop decides whether the circuit can be read back; a whole number
where a real one is stored, out of order and beside an unknown field, is read as the real. -/
theorem stored_form_faithful_nested :
    let circuit (phase : Float) : Circuit Float :=
      [.define ⟨.bit, "ro", 2, true⟩, .loop (.symbol "n") [.conditional "ro" 1 [.globalPhase (.literal phase)]]]
    let tree : Value Float := .list [.list [.record [("RotateX", .record
      [("theta", .record [("Float", .integer 2)]), ("note", .null), ("qubit", .integer 3)])]]]
    let rotation : Circuit Float := [.gate .rotateX #v[3] #v[.literal (Literal.ofInt 2)]]
    decode (circuit 0.5).encode = some (circuit 0.5) ∧ decode (circuit (1 / 0)).encode = none ∧
      decode tree = some rotation ∧ decode rotation.encode = some rotation := by
  intro circuit tree rotation
  have fits (phase : Float) : (circuit phase).FitsWords := by
    simp [circuit, FitsWords, nested, Operation.nestedBody, Operation.nested, Operation.words]
  have finite (phase : Float) : (circuit phase).FiniteLiterals ↔ phase.isFinite = true := by
    simp [circuit, FiniteLiterals, nested, Operation.nestedBody, Operation.nested, Operation.parameters,
      Parameter.isFinite, Literal.isFinite]
  have read : decode tree = some rotation := by
    refine (Operation.decodeCircuit_list _).trans ?_
    rw [List.mapM_cons, Operation.decode_eq_flat (by decide) (by decide)]
    rfl
  have finiteTree : tree.Finite := by
    have angle : Literal.isFinite (Literal.ofInt 2 : Float) = true := by decide +kernel
    have qubit : Literal.isFinite (Literal.ofInt 3 : Float) = true := by decide +kernel
    simp [tree, angle, qubit, Value.Finite.null]
  obtain ⟨back, again⟩ := stored_form_faithful (R := Float)
  obtain ⟨kept, -, -⟩ := back (circuit 0.5) (fits 0.5)
  obtain ⟨-, refused, -⟩ := back (circuit (1 / 0)) (fits (1 / 0))
  refine ⟨kept ((finite 0.5).2 ?_), refused fun finiteLiterals => ?_, read, again tree rotation finiteTree read⟩
  · decide +kernel
  · have impossible := (finite (1 / 0)).1 finiteLiterals
    revert impossible
    decide +kernel

end Circuit
end CircuitRunner
