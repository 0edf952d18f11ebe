import CircuitRunner.Proofs.BitRow
import CircuitRunner.Proofs.SucceedsWith
import CircuitRunner.Proofs.TableLookup
import CircuitRunner.Proofs.WellDeclared

/-! The rows that a run collects: a register that is declared for output gets the rows of the
samples in their order, and nothing else is written to it. -/
namespace CircuitRunner

section Declarations
variable {R : Type}

def Definition.isOutputOf (kind : RegisterKind) (name : String) (definition : Definition) : Bool :=
  definition.isOutput && definition.kind == kind && definition.name == name

theorem Definition.isOutputOf_iff {kind : RegisterKind} {name : String} {definition : Definition} :
    definition.isOutputOf kind name = true ↔
      definition.isOutput = true ∧ definition.kind = kind ∧ definition.name = name := by
  simp [isOutputOf, and_assoc]

namespace Circuit

def output? (circuit : Circuit R) (kind : RegisterKind) (name : String) : Option Definition :=
  circuit.definitions.find? (·.isOutputOf kind name)

theorem kind_of_output? {circuit : Circuit R} {kind : RegisterKind} {name : String} {definition : Definition}
    (found : circuit.output? kind name = some definition) : definition.kind = kind :=
  (Definition.isOutputOf_iff.1 (List.find?_some found)).2.1

theorem definitions_apart {circuit : Circuit R} (valid : circuit.validate = .ok ()) :
    circuit.definitions.Pairwise fun first second =>
      (first.kind, first.name) ≠ (second.kind, second.name) := by
  have well := validate_eq_ok_iff.1 valid
  exact (List.pairwise_map.1 well.apart).sublist circuit.definitions_sublist

theorem outputs_of_valid {circuit : Circuit R} (valid : circuit.validate = .ok ()) (kind : RegisterKind)
    (name : String) :
    circuit.definitions.filter (·.isOutputOf kind name) = (circuit.output? kind name).toList := by
  have apart := definitions_apart valid
  unfold output?
  generalize circuit.definitions = definitions at apart ⊢
  induction definitions with
  | nil => rfl
  | cons definition rest ih =>
    obtain ⟨others, apart⟩ := List.pairwise_cons.1 apart
    cases hit : definition.isOutputOf kind name with
    | false => rw [List.filter_cons_of_neg (by simp [hit]), List.find?_cons_of_neg (by simp [hit]), ih apart]
    | true =>
      obtain ⟨_, ofKind, named⟩ := Definition.isOutputOf_iff.1 hit
      -- A second hit would declare the same register again.
      have none_left : rest.filter (·.isOutputOf kind name) = [] := by
        rw [List.filter_eq_nil_iff]
        intro other member again
        obtain ⟨_, otherKind, otherNamed⟩ := Definition.isOutputOf_iff.1 again
        exact others other member (by rw [ofKind, named, otherKind, otherNamed])
      rw [List.filter_cons_of_pos hit, List.find?_cons_of_pos hit, none_left]
      rfl

theorem output?_of_mem {circuit : Circuit R} (valid : circuit.validate = .ok ()) {definition : Definition}
    (member : definition ∈ circuit.definitions) (output : definition.isOutput = true) :
    circuit.output? definition.kind definition.name = some definition := by
  have hit : definition.isOutputOf definition.kind definition.name = true :=
    Definition.isOutputOf_iff.2 ⟨output, rfl, rfl⟩
  have listed := List.mem_filter.2 ⟨member, hit⟩
  rw [outputs_of_valid valid, Option.mem_toList] at listed
  exact listed

end Circuit

end Declarations

namespace Registers
variable {R : Type}

def rows? (registers : Registers R) (kind : RegisterKind) (name : String) : Option (List (Row R)) :=
  match kind with
  | .bit => (registers.bits.get? name).map (·.map .bits)
  | .float => (registers.floats.get? name).map (·.map .floats)
  | .complex => (registers.complexes.get? name).map (·.map .complexes)

def names (registers : Registers R) : RegisterKind → List String
  | .bit => registers.bits.entries.map Prod.fst
  | .float => registers.floats.entries.map Prod.fst
  | .complex => registers.complexes.entries.map Prod.fst

theorem rows?_declare (registers : Registers R) (definition : Definition) (kind : RegisterKind)
    (name : String) :
    (registers.declare definition).rows? kind name =
      if definition.isOutputOf kind name then some [] else registers.rows? kind name := by
  obtain ⟨declaredKind, declaredName, length, isOutput⟩ := definition
  cases isOutput with
  | false => simp [declare, Definition.isOutputOf]
  | true =>
    by_cases named : declaredName = name
    · subst named
      cases declaredKind <;> cases kind <;> simp [declare, rows?, Definition.isOutputOf, Table.get?_insert]
    · have other : ¬name = declaredName := fun same => named same.symm
      cases declaredKind <;> cases kind <;>
        simp [declare, rows?, Definition.isOutputOf, Table.get?_insert, named, other]

theorem rows?_ofDefinitions (definitions : List Definition) (kind : RegisterKind) (name : String) :
    (ofDefinitions definitions : Registers R).rows? kind name =
      if definitions.any (·.isOutputOf kind name) then some [] else none := by
  induction definitions using List.reverseRecOn with
  | nil => cases kind <;> rfl
  | append_singleton definitions definition ih =>
    rw [ofDefinitions, List.foldl_append]
    change ((ofDefinitions definitions).declare definition).rows? kind name = _
    rw [rows?_declare, ih, List.any_append, List.any_cons, List.any_nil]
    cases definition.isOutputOf kind name <;> simp

theorem rows?_push (registers : Registers R) (target : String) (row : Row R) (kind : RegisterKind)
    (name : String) :
    (registers.push target row).rows? kind name =
      if row.kind = kind ∧ target = name then (registers.rows? kind name).map (· ++ [row])
      else registers.rows? kind name := by
  by_cases named : target = name
  · subst named
    cases row <;> cases kind <;> simp [push, rows?, Row.kind, Table.get?_modify, Function.comp_def]
  · have other : ¬name = target := fun same => named same.symm
    cases row <;> cases kind <;> simp [push, rows?, Row.kind, Table.get?_modify, named, other]

theorem names_push (registers : Registers R) (name : String) (row : Row R) (kind : RegisterKind) :
    (registers.push name row).names kind = registers.names kind := by
  cases row <;> cases kind <;> simp [push, names, Table.names_modify]

theorem names_declare (registers : Registers R) (definition : Definition) (kind : RegisterKind) :
    (registers.declare definition).names kind =
      if definition.isOutput && definition.kind == kind then
        if definition.name ∈ registers.names kind then registers.names kind
        else registers.names kind ++ [definition.name]
      else registers.names kind := by
  obtain ⟨declaredKind, declaredName, length, isOutput⟩ := definition
  cases isOutput with
  | false => simp [declare]
  | true =>
    cases declaredKind <;> cases kind
    case bit.bit | float.float | complex.complex =>
      exact (Table.names_insert _ _ _).trans (if_pos rfl).symm
    all_goals rfl

theorem nodup_names_ofDefinitions (definitions : List Definition) (kind : RegisterKind) :
    ((ofDefinitions definitions : Registers R).names kind).Nodup := by
  apply List.foldlRecOn (motive := fun registers : Registers R => (registers.names kind).Nodup)
  · cases kind <;> exact List.nodup_nil
  · intro registers distinct definition _
    rw [names_declare]
    split
    · split
      · exact distinct
      · rename_i fresh
        rw [← List.concat_eq_append]
        exact distinct.concat fresh
    · exact distinct

theorem names_ofDefinitions {definitions : List Definition}
    (apart : definitions.Pairwise fun first second => (first.kind, first.name) ≠ (second.kind, second.name))
    (kind : RegisterKind) :
    (ofDefinitions definitions : Registers R).names kind =
      (definitions.filter fun definition => definition.isOutput && definition.kind == kind).map
        Definition.name := by
  induction definitions using List.reverseRecOn with
  | nil => cases kind <;> rfl
  | append_singleton definitions definition ih =>
    obtain ⟨apart, _, others⟩ := List.pairwise_append.1 apart
    rw [ofDefinitions, List.foldl_append]
    change ((ofDefinitions definitions).declare definition).names kind = _
    rw [names_declare, ih apart, List.filter_append, List.map_append]
    split
    · rename_i asked
      have fresh : definition.name ∉ (definitions.filter fun definition =>
          definition.isOutput && definition.kind == kind).map Definition.name := by
        intro known
        obtain ⟨other, listed, named⟩ := List.mem_map.1 known
        obtain ⟨member, ofKind⟩ := List.mem_filter.1 listed
        have sameKind : other.kind = definition.kind := by
          rw [Bool.and_eq_true, beq_iff_eq] at asked ofKind
          rw [asked.2, ofKind.2]
        exact others other member definition (List.mem_singleton_self _) (by rw [sameKind, named])
      rw [if_neg fresh]
      simp [asked]
    · rename_i other
      simp [other]

end Registers

namespace Backend
variable {R : Type}

def rowEntries (readouts : List Readout) (bits : List Bool) (definition : Definition) : List Bool :=
  (List.range definition.length).map fun index =>
    (written readouts bits definition.name index).getD false

variable [Scalar R]

def sampleRow? (readouts : List Readout) (sample : Sample R) (definition : Definition) : Option (Row R) :=
  match sample with
  | .state bits _ => some (stateRow readouts bits definition)
  | .expectation value => if definition.kind = .float then some (expectationRow value definition) else none

theorem stateRow_bit {definition : Definition} (bit : definition.kind = .bit) (readouts : List Readout)
    (bits : List Bool) :
    (stateRow readouts bits definition : Row R) = .bits (rowEntries readouts bits definition) := by
  rw [stateRow, bit]
  exact bitRow_written readouts bits definition

theorem expectationRow_eq (value : R) (definition : Definition) :
    expectationRow value definition = .floats ((List.replicate definition.length 0).set 0 value) := by
  simp only [expectationRow, Row.zeroed, Row.setFloat?]
  split
  · rfl
  · rename_i short
    rw [List.set_eq_of_length_le (Nat.le_of_not_lt short)]
    rfl

theorem kind_of_sampleRow? {readouts : List Readout} {sample : Sample R} {definition : Definition}
    {row : Row R} (added : sampleRow? readouts sample definition = some row) : row.kind = definition.kind := by
  cases sample with
  | state bits probability =>
    cases added
    cases kind : definition.kind with
    | bit => rw [stateRow_bit kind, Row.kind]
    | float | complex => rw [stateRow, kind]; rfl
  | expectation value =>
    rw [sampleRow?] at added
    split at added
    · rename_i float
      cases added
      rw [expectationRow_eq, Row.kind, float]
    · cases added

theorem bitRows_of_samples {definition : Definition} (bit : definition.kind = .bit)
    (readouts : List Readout) (samples : List (Sample R)) :
    samples.filterMap (sampleRow? readouts · definition) =
      ((samples.filterMap Sample.bits?).map fun bits => rowEntries readouts bits definition).map
        Row.bits := by
  induction samples with
  | nil => rfl
  | cons sample rest ih =>
    rw [List.filterMap_cons, List.filterMap_cons, ih]
    cases sample with
    | state bits probability =>
      simp only [sampleRow?, stateRow_bit bit]
      rfl
    | expectation value =>
      simp only [sampleRow?, bit]
      rfl

def pushSample (readouts : List Readout) (sample : Sample R) (registers : Registers R)
    (definition : Definition) : Registers R :=
  match sampleRow? readouts sample definition with
  | some row => registers.push definition.name row
  | none => registers

theorem fold_eq (definitions : List Definition) (readouts : List Readout) (registers : Registers R)
    (sample : Sample R) :
    fold definitions readouts registers sample =
      (definitions.filter (·.isOutput)).foldl (pushSample readouts sample) registers := by
  cases sample with
  | state bits probability => rfl
  | expectation value =>
    simp only [fold]
    induction definitions generalizing registers with
    | nil => rfl
    | cons definition rest ih =>
      by_cases output : definition.isOutput = true
      · rw [List.filter_cons_of_pos output, List.foldl_cons]
        by_cases float : definition.kind = .float
        · rw [List.filter_cons_of_pos (by simp [output, float]), List.foldl_cons, ih, pushSample, sampleRow?,
            if_pos float]
        · rw [List.filter_cons_of_neg (by simp [float]), ih, pushSample, sampleRow?, if_neg float]
      · rw [List.filter_cons_of_neg output, List.filter_cons_of_neg (by simp [output]), ih]

theorem rows?_pushSample (readouts : List Readout) (sample : Sample R) (registers : Registers R)
    {definition : Definition} (output : definition.isOutput = true) (kind : RegisterKind) (name : String) :
    (pushSample readouts sample registers definition).rows? kind name =
      if definition.isOutputOf kind name then
        (registers.rows? kind name).map (· ++ (sampleRow? readouts sample definition).toList)
      else registers.rows? kind name := by
  unfold pushSample
  cases added : sampleRow? readouts sample definition with
  | none => cases registers.rows? kind name <;> simp
  | some row =>
    simp only [Registers.rows?_push, kind_of_sampleRow? added, Definition.isOutputOf_iff, output, true_and]
    rfl

theorem rows?_fold (definitions : List Definition) (readouts : List Readout) (registers : Registers R)
    (sample : Sample R) (kind : RegisterKind) (name : String) :
    (fold definitions readouts registers sample).rows? kind name =
      (registers.rows? kind name).map
        (· ++ (definitions.filter (·.isOutputOf kind name)).filterMap (sampleRow? readouts sample)) := by
  rw [fold_eq]
  induction definitions generalizing registers with
  | nil => simp
  | cons definition rest ih =>
    by_cases output : definition.isOutput = true
    · rw [List.filter_cons_of_pos output, List.foldl_cons, ih, rows?_pushSample _ _ _ output]
      by_cases hit : definition.isOutputOf kind name = true
      · rw [if_pos hit, List.filter_cons_of_pos hit, List.filterMap_cons]
        cases sampleRow? readouts sample definition <;> cases registers.rows? kind name <;> simp
      · rw [if_neg hit, List.filter_cons_of_neg hit]
    · have miss : ¬definition.isOutputOf kind name = true :=
        fun hit => output (Definition.isOutputOf_iff.1 hit).1
      rw [List.filter_cons_of_neg output, List.filter_cons_of_neg miss, ih]

theorem names_fold (definitions : List Definition) (readouts : List Readout) (registers : Registers R)
    (sample : Sample R) (kind : RegisterKind) :
    (fold definitions readouts registers sample).names kind = registers.names kind := by
  rw [fold_eq]
  apply List.foldlRecOn (motive := fun current : Registers R => current.names kind = registers.names kind)
  · rfl
  · intro current same definition _
    unfold pushSample
    split
    · rw [Registers.names_push, same]
    · exact same

def collect (definitions : List Definition) (readouts : List Readout) (samples : List (Sample R)) :
    Registers R :=
  samples.foldl (fold definitions readouts) (.ofDefinitions definitions)

theorem names_collect (definitions : List Definition) (readouts : List Readout)
    (samples : List (Sample R)) (kind : RegisterKind) :
    (collect definitions readouts samples).names kind =
      (Registers.ofDefinitions definitions : Registers R).names kind := by
  apply List.foldlRecOn (motive := fun current : Registers R =>
    current.names kind = (Registers.ofDefinitions definitions : Registers R).names kind)
  · rfl
  · intro current same sample _
    rw [names_fold, same]

theorem rows?_collect (definitions : List Definition) (readouts : List Readout)
    (samples : List (Sample R)) (kind : RegisterKind) (name : String) :
    (collect definitions readouts samples).rows? kind name =
      if definitions.any (·.isOutputOf kind name) then
        some (samples.flatMap fun sample =>
          (definitions.filter (·.isOutputOf kind name)).filterMap (sampleRow? readouts sample))
      else none := by
  induction samples using List.reverseRecOn with
  | nil => exact Registers.rows?_ofDefinitions definitions kind name
  | append_singleton samples sample ih =>
    rw [collect, List.foldl_append]
    change (fold definitions readouts (collect definitions readouts samples) sample).rows? kind name = _
    rw [rows?_fold, ih]
    split <;> simp

/-- In a valid circuit the rows of an output register are those of its one declaration. -/
theorem rows?_collect_of_valid {circuit : Circuit R} (valid : circuit.validate = .ok ())
    (readouts : List Readout) (samples : List (Sample R)) (kind : RegisterKind) (name : String) :
    (collect circuit.definitions readouts samples).rows? kind name =
      (circuit.output? kind name).map fun definition =>
        samples.filterMap (sampleRow? readouts · definition) := by
  have declared : circuit.definitions.any (·.isOutputOf kind name) = (circuit.output? kind name).isSome := by
    rw [Circuit.output?, Bool.eq_iff_iff, List.find?_isSome, List.any_eq_true]
  rw [rows?_collect, declared, Circuit.outputs_of_valid valid]
  cases circuit.output? kind name with
  | none => rfl
  | some definition =>
    rw [Option.isSome_some, if_pos rfl, Option.map_some, List.filterMap_eq_flatMap_toList]
    congr 2

/-- A run that succeeds collects the samples that the engine has for the program of a valid circuit. -/
theorem run_ok [Literal R] {backend : Backend R} {circuit : Circuit R} {registers : Registers R}
    (ran : backend.run circuit = .ok registers) :
    circuit.validate = .ok () ∧
      checkQubits backend.configuration.numberOfQubits (circuit.readouts.map (·.qubit)) = .ok () ∧
      ∃ program result, backend.program circuit = .ok program ∧
        backend.engine.submit (backend.job program) = .ok result ∧
        collect circuit.definitions circuit.readouts result.samples = registers := by
  obtain ⟨_, checked, ran⟩ := ok_of_bind ran
  obtain ⟨_, inside, ran⟩ := ok_of_bind ran
  obtain ⟨program, lowered, ran⟩ := ok_of_bind ran
  obtain ⟨result, submitted, ran⟩ := ok_of_bind ran
  exact ⟨ok_of_mapError checked, ok_of_mapError inside, program, result, lowered, ok_of_mapError submitted,
    Except.ok.inj ran⟩

end Backend
end CircuitRunner
