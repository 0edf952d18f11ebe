import CircuitRunner.Double
import CircuitRunner.Proofs.CollectedRows
import CircuitRunner.Proofs.LoweredInstruction

/-! The registers of a run, whatever samples the engine returns. Their names are those of the output
declarations, every sample leaves the row that the measurements of the circuit ask for, and no
measurement writes outside its row. -/
namespace CircuitRunner

section Measurements
variable {R : Type}

namespace Operation

def readout? : Operation R → Option Readout
  | .measure qubit register index => some ⟨qubit, register, index⟩
  | _ => none

mutual

theorem readouts_eq (operation : Operation R) :
    operation.readouts = operation.inlined.filterMap readout? := by
  cases operation with
  | loop repetitions body =>
    rw [readouts, inlined]
    exact readoutsInBody_eq body
  | _ => rfl

theorem readoutsInBody_eq (body : List (Operation R)) :
    readoutsInBody body = (inlinedBody body).filterMap readout? := by
  cases body with
  | nil => rfl
  | cons operation rest =>
    rw [readoutsInBody, inlinedBody, List.filterMap_append, readouts_eq operation, readoutsInBody_eq rest]

end

end Operation

namespace Circuit

def source? (circuit : Circuit R) (register : String) (index : Nat) : Option Nat :=
  circuit.inlined.reverse.findSome? fun
    | .measure qubit readout entry => if readout = register ∧ entry = index then some qubit else none
    | _ => none

/-- The row that a sample leaves in an output register, if it leaves one. Bits come from the
measured qubits, an expectation value goes to the first entry, and all else is zero. -/
def row? [Scalar R] (circuit : Circuit R) (definition : Definition) : Sample R → Option (Row R)
  | .state bits _ =>
    match definition.kind with
    | .bit => some (.bits ((List.range definition.length).map fun index =>
        match circuit.source? definition.name index with
        | some qubit => bits[qubit]?.getD false
        | none => false))
    | .float => some (.floats ((List.range definition.length).map fun _ => 0))
    | .complex => some (.complexes ((List.range definition.length).map fun _ => 0))
  | .expectation value =>
    match definition.kind with
    | .float => some (.floats ((List.range definition.length).map fun index => if index = 0 then value else 0))
    | .bit | .complex => none

theorem written_readouts (circuit : Circuit R) (bits : List Bool) (register : String) (index : Nat) :
    Backend.written circuit.readouts bits register index =
      (circuit.source? register index).map fun qubit => bits[qubit]?.getD false := by
  unfold Backend.written readouts source? Circuit.inlined
  rw [Operation.readoutsInBody_eq, List.filter_filterMap, List.getLast?_filterMap, List.map_findSome?,
    List.map_findSome?]
  congr 1
  funext operation
  cases operation with
  | measure qubit readout entry =>
    by_cases hit : readout = register ∧ entry = index
    · simp [Operation.readout?, Option.filter, hit]
    · simp [Operation.readout?, Option.filter, hit]
  | _ => rfl

theorem sampleRow?_readouts [Scalar R] (circuit : Circuit R) (sample : Sample R) (definition : Definition) :
    Backend.sampleRow? circuit.readouts sample definition = circuit.row? definition sample := by
  cases sample with
  | state bits probability =>
    rw [Backend.sampleRow?, row?]
    cases kind : definition.kind with
    | bit =>
      rw [Backend.stateRow_bit kind, Backend.rowEntries]
      congr 2
      apply List.map_congr_left
      intro index _
      rw [written_readouts]
      cases circuit.source? definition.name index <;> rfl
    | float | complex => simp [Backend.stateRow, kind, Row.zeroed, List.map_const']
  | expectation value =>
    rw [Backend.sampleRow?, row?]
    cases kind : definition.kind with
    | bit | complex => rfl
    | float =>
      rw [if_pos rfl, Backend.expectationRow_eq]
      congr 2
      apply List.ext_getElem
      · simp
      · intro index left right
        simp only [List.getElem_set, List.getElem_replicate, List.getElem_map, List.getElem_range]
        by_cases first : index = 0
        · rw [if_pos first.symm, if_pos first]
        · rw [if_neg (Ne.symm first), if_neg first]

end Circuit

end Measurements

namespace Backend

/-- The registers of a run are those declared for output at top level, each with the rows that the
samples of the engine leave in it, and every measurement into one of them writes inside its row. -/
theorem run_registers {R : Type} [Scalar R] [Literal R] (backend : Backend R) (circuit : Circuit R)
    (registers : Registers R) (ran : backend.run circuit = .ok registers) :
    ∃ program result, backend.program circuit = .ok program ∧
      backend.engine.submit (backend.job program) = .ok result ∧
      (∀ kind, (registers.names kind).Nodup ∧
        registers.names kind = (circuit.definitions.filter fun definition =>
          definition.isOutput && definition.kind == kind).map Definition.name) ∧
      ∀ definition ∈ circuit.definitions, definition.isOutput = true →
        registers.rows? definition.kind definition.name =
            some (result.samples.filterMap (circuit.row? definition)) ∧
          (definition.kind = .bit → ∀ qubit index,
            .measure qubit definition.name index ∈ circuit.inlined → index < definition.length) := by
  obtain ⟨valid, _, program, result, lowered, submitted, collected⟩ := run_ok ran
  have well := Circuit.validate_eq_ok_iff.1 valid
  refine ⟨program, result, lowered, submitted, fun kind => ?_, ?_⟩
  · rw [← collected, names_collect]
    exact ⟨Registers.nodup_names_ofDefinitions circuit.definitions kind,
      Registers.names_ofDefinitions (Circuit.definitions_apart valid) kind⟩
  · intro definition member output
    refine ⟨?_, fun bit qubit index => well.measure_inside (circuit.definitions_sublist.subset member) bit⟩
    rw [← collected, rows?_collect_of_valid valid, Circuit.output?_of_mem valid member output, Option.map_some]
    simp only [circuit.sampleRow?_readouts]

/-- An engine that answers with a short state, an expectation value and a full state. The entry that is
measured twice holds the later qubit, and the float register gets a row from every sample. -/
theorem run_registers_scripted :
    let samples : List (Sample Float) := [.state [true] none, .expectation 0.5, .state [false, true] none]
    let backend : Backend Float :=
      { configuration := { numberOfQubits := 2 }, jobType := .sample, observable := none, assignment := none,
        engine := ⟨"scripted", 2, fun job => .ok { jobId := job.id, samples }⟩, warnings := [] }
    let circuit : Circuit Float := [.define ⟨.bit, "ro", 2, true⟩, .define ⟨.float, "ro", 1, true⟩,
      .measure 0 "ro" 1, .loop (.literal 3) [.measure 1 "ro" 1, .measure 0 "ro" 0]]
    ∃ registers, backend.run circuit = .ok registers ∧
      registers.names .complex = [] ∧
      registers.rows? .bit "ro" = some [.bits [true, false], .bits [false, true]] ∧
      registers.rows? .float "ro" = some [.floats [0], .floats [0.5], .floats [0]] := by
  intro samples backend circuit
  have runs : (backend.run circuit).toOption.isSome = true := by decide +kernel
  cases ran : backend.run circuit with
  | error error =>
    rw [ran] at runs
    cases runs
  | ok registers =>
    obtain ⟨program, result, _, submitted, named, rows⟩ := run_registers backend circuit registers ran
    cases submitted
    refine ⟨registers, rfl, (named .complex).2, ?_, ?_⟩
    · exact (rows ⟨.bit, "ro", 2, true⟩ (by decide) rfl).1
    · exact (rows ⟨.float, "ro", 1, true⟩ (by decide) rfl).1

end Backend
end CircuitRunner
