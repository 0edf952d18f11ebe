import CircuitRunner.Proofs.RegisterRows
import CircuitRunner.Proofs.UnrolledRun

/-! Which declared outputs a run returns. Validation and the collection of readouts enter loop
bodies, the listing of declarations does not: an output that is declared inside a loop is accepted,
may be measured into, and is missing from the registers of the run. -/
namespace CircuitRunner

section Accepted
variable {R : Type}

def Circuit.declarations (circuit : Circuit R) : List Definition :=
  circuit.inlined.filterMap Operation.definition?

namespace Circuit

theorem mem_declarations_of_definitions {circuit : Circuit R} {definition : Definition}
    (member : definition ∈ circuit.definitions) : definition ∈ circuit.declarations :=
  circuit.definitions_sublist.subset member

/-- Kind and name tell accepted declarations apart, at any depth. -/
theorem declaration_unique {circuit : Circuit R} (valid : circuit.validate = .ok ())
    {first second : Definition} (firstListed : first ∈ circuit.declarations)
    (secondListed : second ∈ circuit.declarations) (kind : first.kind = second.kind)
    (name : first.name = second.name) : first = second := by
  have well := validate_eq_ok_iff.1 valid
  exact well.eq_of_key firstListed secondListed kind name

theorem output?_declaration {circuit : Circuit R} (valid : circuit.validate = .ok ())
    {definition : Definition} (listed : definition ∈ circuit.declarations)
    (output : definition.isOutput = true) :
    circuit.output? definition.kind definition.name =
      if definition ∈ circuit.definitions then some definition else none := by
  split
  · rename_i member
    exact output?_of_mem valid member output
  · rename_i nested
    -- A hit at top level would be a second declaration of the register.
    cases found : circuit.output? definition.kind definition.name with
    | none => rfl
    | some other =>
      have member : other ∈ circuit.definitions := List.mem_of_find?_eq_some found
      obtain ⟨_, kind, name⟩ := Definition.isOutputOf_iff.1 (List.find?_some found)
      have same := declaration_unique valid (mem_declarations_of_definitions member) listed kind name
      exact absurd (same ▸ member) nested

end Circuit
end Accepted

namespace Backend

/-- Of the outputs that validation accepts, a run returns those declared at top level, with a row for
every sample that gives them one. An output declared inside a loop body is not returned, although its
measurements are accepted like those of any other. -/
theorem run_outputs {R : Type} [Scalar R] [Literal R] (backend : Backend R) (circuit : Circuit R)
    (registers : Registers R) (ran : backend.run circuit = .ok registers) :
    ∃ program result, backend.program circuit = .ok program ∧
      backend.engine.submit (backend.job program) = .ok result ∧
      (∀ definition ∈ circuit.declarations, definition.isOutput = true →
        registers.rows? definition.kind definition.name =
            (if definition ∈ circuit.definitions then
              some (result.samples.filterMap (circuit.row? definition)) else none) ∧
          (definition.kind = .bit → ∀ qubit index,
            .measure qubit definition.name index ∈ circuit.inlined → index < definition.length)) ∧
      ((∀ definition ∈ circuit.declarations, definition.isOutput = true →
          (registers.rows? definition.kind definition.name).isSome = true) ↔
        ∀ definition ∈ circuit.declarations, definition.isOutput = true →
          definition ∈ circuit.definitions) := by
  obtain ⟨valid, _, program, result, lowered, submitted, collected⟩ := run_ok ran
  have well := Circuit.validate_eq_ok_iff.1 valid
  have returned (definition : Definition) (listed : definition ∈ circuit.declarations)
      (output : definition.isOutput = true) :
      registers.rows? definition.kind definition.name =
        if definition ∈ circuit.definitions then
          some (result.samples.filterMap (circuit.row? definition)) else none := by
    rw [← collected, rows?_collect_of_valid valid, Circuit.output?_declaration valid listed output]
    split
    · simp only [Option.map_some, circuit.sampleRow?_readouts]
    · rfl
  refine ⟨program, result, lowered, submitted, ?_, ?_⟩
  · intro definition listed output
    exact ⟨returned definition listed output, fun bit qubit index => well.measure_inside listed bit⟩
  · refine forall_congr' fun definition => forall_congr' fun listed => forall_congr' fun output => ?_
    rw [returned definition listed output]
    split
    · rename_i member
      exact iff_of_true rfl member
    · rename_i nested
      exact iff_of_false Bool.false_ne_true nested

/-- One output at top level and one inside a loop, both measured in the loop. -/
theorem run_outputs_nested :
    let outer : Definition := ⟨.bit, "outer", 1, true⟩
    let inner : Definition := ⟨.bit, "inner", 1, true⟩
    let circuit : Circuit Float := [.define outer, .gate .pauliX #v[0] #v[],
      .loop (.literal 2) [.define inner, .measure 0 "outer" 0, .measure 0 "inner" 0]]
    ∃ registers, oneQubit.run circuit = .ok registers ∧
      (registers.rows? .bit "outer").isSome = true ∧ registers.rows? .bit "inner" = none := by
  intro outer inner circuit
  have runs : (oneQubit.run circuit).toOption.isSome = true := by decide +kernel
  cases ran : oneQubit.run circuit with
  | error error =>
    rw [ran] at runs
    cases runs
  | ok registers =>
    obtain ⟨program, result, _, _, returned, _⟩ := run_outputs oneQubit circuit registers ran
    obtain ⟨outerRows, _⟩ := returned outer (by decide) rfl
    obtain ⟨innerRows, _⟩ := returned inner (by decide) rfl
    have top : outer ∈ circuit.definitions := by decide
    have nested : inner ∉ circuit.definitions := by decide
    rw [if_pos top] at outerRows
    rw [if_neg nested] at innerRows
    exact ⟨registers, rfl, Option.isSome_of_eq_some outerRows, innerRows⟩

/-- The only output of a circuit is declared and measured inside a loop that runs once, and the run
returns no register at all. -/
theorem run_loop_output :
    let output : Definition := ⟨.bit, "ro", 1, true⟩
    let circuit : Circuit Float := [.loop (.literal 1)
      [.define output, .gate .pauliX #v[0] #v[], .measure 0 "ro" 0]]
    circuit.validate = .ok () ∧ output ∈ circuit.declarations ∧
      (oneQubit.run circuit).toOption.map (·.bits.entries) = some [] := by
  decide +kernel

end Backend
end CircuitRunner
