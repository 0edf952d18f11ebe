import CircuitRunner.Double
import CircuitRunner.Proofs.CollectedRows

/-! Registers of several runs. Of each kind and name the last run that has the register has the say,
and the first run that fails ends the whole. An engine may remember the jobs it had, so the same
circuit can have other outputs when it comes again. -/
namespace CircuitRunner

namespace Table
variable {α : Type}

theorem distinct_merge {table : Table α} (distinct : table.Distinct) (other : Table α) :
    (table.merge other).Distinct := by
  apply List.foldlRecOn (motive := Distinct)
  · exact distinct
  · intro current kept entry _
    exact distinct_insert kept entry.1 entry.2

end Table

namespace Registers
variable {R : Type}

theorem nodup_names_merge {registers : Registers R} (distinct : ∀ kind, (registers.names kind).Nodup)
    (other : Registers R) (kind : RegisterKind) : ((registers.merge other).names kind).Nodup := by
  cases kind with
  | bit => exact Table.distinct_merge (distinct .bit) other.bits
  | float => exact Table.distinct_merge (distinct .float) other.floats
  | complex => exact Table.distinct_merge (distinct .complex) other.complexes

theorem rows?_merge (registers : Registers R) {other : Registers R}
    (distinct : ∀ kind, (other.names kind).Nodup) (kind : RegisterKind) (name : String) :
    (registers.merge other).rows? kind name = (other.rows? kind name).or (registers.rows? kind name) := by
  cases kind with
  | bit => simp only [rows?, merge, Table.get?_merge registers.bits (distinct .bit), Option.map_or]
  | float => simp only [rows?, merge, Table.get?_merge registers.floats (distinct .float), Option.map_or]
  | complex => simp only [rows?, merge, Table.get?_merge registers.complexes (distinct .complex), Option.map_or]

def mergeAll (collections : List (Registers R)) : Registers R := collections.foldl merge empty

theorem mergeAll_concat (collections : List (Registers R)) (last : Registers R) :
    mergeAll (collections ++ [last]) = (mergeAll collections).merge last := by
  rw [mergeAll, List.foldl_append]
  rfl

theorem nodup_names_mergeAll (collections : List (Registers R)) (kind : RegisterKind) :
    ((mergeAll collections).names kind).Nodup := by
  induction collections using List.reverseRecOn generalizing kind with
  | nil => cases kind <;> exact List.nodup_nil
  | append_singleton collections last ih =>
    rw [mergeAll_concat]
    exact nodup_names_merge ih last kind

theorem rows?_mergeAll {collections : List (Registers R)}
    (distinct : ∀ registers ∈ collections, ∀ kind, (registers.names kind).Nodup) (kind : RegisterKind)
    (name : String) :
    (mergeAll collections).rows? kind name = collections.reverse.findSome? (·.rows? kind name) := by
  induction collections using List.reverseRecOn with
  | nil => cases kind <;> rfl
  | append_singleton collections last ih =>
    have own := distinct last (List.mem_append_right _ (List.mem_singleton_self last))
    have others := ih fun registers member => distinct registers (List.mem_append_left _ member)
    rw [mergeAll_concat, rows?_merge _ own, others, List.reverse_append, List.reverse_singleton,
      List.singleton_append, List.findSome?_cons]
    cases last.rows? kind name <;> rfl

end Registers

structure LastWriter {R : Type} (attempts : List (Except BackendError (Registers R)))
    (result : Except BackendError (Registers R)) : Prop where
  succeeds : (∃ merged, result = .ok merged) ↔ ∀ attempt ∈ attempts, ∃ outputs, attempt = .ok outputs
  /-- The error is that of the first run that fails. -/
  fails : ∀ error, result = .error error ↔ ∃ before after, attempts = before ++ .error error :: after ∧
    ∀ attempt ∈ before, ∃ outputs, attempt = .ok outputs
  named_once : ∀ merged, result = .ok merged → ∀ kind, (merged.names kind).Nodup
  present : ∀ merged, result = .ok merged → ∀ kind name, (merged.rows? kind name).isSome = true ↔
    ∃ outputs, .ok outputs ∈ attempts ∧ (outputs.rows? kind name).isSome = true
  /-- The rows are those of the last run with the register, all of them and no others. -/
  rows : ∀ merged, result = .ok merged → ∀ kind name rows, merged.rows? kind name = some rows ↔
    ∃ before outputs after, attempts = before ++ .ok outputs :: after ∧
      outputs.rows? kind name = some rows ∧ ∀ later, .ok later ∈ after → later.rows? kind name = none

section Attempts
variable {ε α : Type}

theorem cases_attempts (attempts : List (Except ε α)) :
    (∃ values : List α, attempts = values.map .ok) ∨
      ∃ (values : List α) (error : ε) (after : List (Except ε α)),
        attempts = values.map .ok ++ .error error :: after := by
  induction attempts with
  | nil => exact .inl ⟨[], rfl⟩
  | cons attempt attempts ih =>
    cases attempt with
    | error error => exact .inr ⟨[], error, attempts, rfl⟩
    | ok value =>
      rcases ih with ⟨values, rfl⟩ | ⟨values, error, after, rfl⟩
      · exact .inl ⟨value :: values, rfl⟩
      · exact .inr ⟨value :: values, error, after, rfl⟩

theorem ok_of_mem_map {values : List α} {attempt : Except ε α} (member : attempt ∈ values.map .ok) :
    ∃ value, attempt = .ok value := by
  obtain ⟨value, _, rfl⟩ := List.mem_map.1 member
  exact ⟨value, rfl⟩

theorem first_error_unique {values : List α} {error other : ε} {after before rest : List (Except ε α)}
    (same : values.map .ok ++ .error error :: after = before ++ .error other :: rest)
    (early : ∀ attempt ∈ before, ∃ value, attempt = .ok value) : error = other := by
  induction before generalizing values with
  | nil =>
    cases values with
    | nil => exact Except.error.inj (List.cons.inj same).1
    | cons value values => cases (List.cons.inj same).1
  | cons attempt before ih =>
    obtain ⟨⟨value, rfl⟩, others⟩ := List.forall_mem_cons.1 early
    cases values with
    | nil => cases (List.cons.inj same).1
    | cons first values => exact ih (List.cons.inj same).2 others

end Attempts

namespace LastWriter
variable {R : Type}

theorem of_outputs (collections : List (Registers R))
    (distinct : ∀ registers ∈ collections, ∀ kind, (registers.names kind).Nodup) :
    LastWriter (collections.map .ok) (.ok (Registers.mergeAll collections)) := by
  have rows (kind : RegisterKind) (name : String) := Registers.rows?_mergeAll distinct kind name
  refine ⟨?_, ?_, ?_, ?_, ?_⟩
  · exact iff_of_true ⟨_, rfl⟩ fun attempt => ok_of_mem_map
  · intro error
    refine iff_of_false nofun ?_
    rintro ⟨before, after, split, _⟩
    have member : Except.error error ∈ collections.map Except.ok := by
      rw [split]
      exact List.mem_append_right _ List.mem_cons_self
    obtain ⟨outputs, impossible⟩ := ok_of_mem_map member
    cases impossible
  · rintro merged ⟨⟩ kind
    exact Registers.nodup_names_mergeAll collections kind
  · rintro merged ⟨⟩ kind name
    rw [rows, List.findSome?_isSome_iff]
    constructor
    · rintro ⟨outputs, member, found⟩
      exact ⟨outputs, List.mem_map.2 ⟨outputs, List.mem_reverse.1 member, rfl⟩, found⟩
    · rintro ⟨outputs, member, found⟩
      obtain ⟨other, listed, same⟩ := List.mem_map.1 member
      cases same
      exact ⟨outputs, List.mem_reverse.2 listed, found⟩
  · rintro merged ⟨⟩ kind name found
    rw [rows, List.findSome?_eq_some_iff]
    -- The search runs from the last collection to the first, so what it passes over comes later.
    constructor
    · rintro ⟨later, outputs, earlier, split, own, absent⟩
      have order : collections = earlier.reverse ++ outputs :: later.reverse := by
        rw [← List.reverse_reverse collections, split]
        simp
      refine ⟨earlier.reverse.map .ok, outputs, later.reverse.map .ok, by rw [order]; simp, own, ?_⟩
      intro other member
      obtain ⟨registers, listed, same⟩ := List.mem_map.1 member
      cases same
      exact absent other (List.mem_reverse.1 listed)
    · rintro ⟨before, outputs, after, split, own, absent⟩
      obtain ⟨earlier, rest, order, rfl, tail⟩ := List.map_eq_append_iff.1 split
      obtain ⟨first, later, rfl, head, rfl⟩ := List.map_eq_cons_iff.1 tail
      cases head
      refine ⟨later.reverse, outputs, earlier.reverse, by rw [order]; simp, own, ?_⟩
      intro other member
      exact absent other (List.mem_map.2 ⟨other, List.mem_reverse.1 member, rfl⟩)

theorem of_failure (collections : List (Registers R)) (error : BackendError)
    (after : List (Except BackendError (Registers R))) :
    LastWriter (collections.map .ok ++ .error error :: after) (.error error) := by
  refine ⟨?_, ?_, nofun, nofun, nofun⟩
  · refine iff_of_false nofun fun all => ?_
    obtain ⟨outputs, impossible⟩ := all (.error error) (List.mem_append_right _ List.mem_cons_self)
    cases impossible
  · intro other
    constructor
    · rintro ⟨⟩
      exact ⟨collections.map .ok, after, rfl, fun attempt => ok_of_mem_map⟩
    · rintro ⟨before, rest, split, early⟩
      rw [first_error_unique split early]

end LastWriter

section Merging
variable {R : Type}

def mergeAttempts (merged : Registers R) (attempts : List (Except BackendError (Registers R))) :
    Except BackendError (Registers R) :=
  attempts.foldlM (fun merged attempt => attempt.map merged.merge) merged

theorem mergeAttempts_append (merged : Registers R) (collections : List (Registers R))
    (rest : List (Except BackendError (Registers R))) :
    mergeAttempts merged (collections.map .ok ++ rest) =
      mergeAttempts (collections.foldl Registers.merge merged) rest := by
  induction collections generalizing merged with
  | nil => rfl
  | cons outputs collections ih => exact ih (merged.merge outputs)

theorem lastWriter_mergeAttempts {attempts : List (Except BackendError (Registers R))}
    (distinct : ∀ outputs, .ok outputs ∈ attempts → ∀ kind, (outputs.names kind).Nodup) :
    LastWriter attempts (mergeAttempts .empty attempts) := by
  rcases cases_attempts attempts with ⟨collections, rfl⟩ | ⟨collections, error, after, rfl⟩
  · have merged := mergeAttempts_append .empty collections []
    rw [List.append_nil] at merged
    rw [merged]
    exact LastWriter.of_outputs collections fun registers member =>
      distinct registers (List.mem_map.2 ⟨registers, member, rfl⟩)
  · rw [mergeAttempts_append]
    exact LastWriter.of_failure collections error after

end Merging

/-- An engine whose answers may depend on the jobs it had before. -/
structure StatefulEngine (Memory R : Type) where
  name : String
  maxQubits : Nat
  submit : Memory → Job R → Except EngineError (ExecutionResult R) × Memory

namespace StatefulEngine
variable {Memory R : Type}

def current (stateful : StatefulEngine Memory R) (memory : Memory) : Engine R where
  name := stateful.name
  maxQubits := stateful.maxQubits
  submit job := (stateful.submit memory job).1

def ofEngine (engine : Engine R) : StatefulEngine Unit R where
  name := engine.name
  maxQubits := engine.maxQubits
  submit _ job := (engine.submit job, ())

end StatefulEngine

namespace Backend
variable {R : Type} [Scalar R] [Literal R] {Memory : Type}

def submission (backend : Backend R) (circuit : Circuit R) : Except BackendError (Job R) := do
  circuit.validate.mapError .circuit
  (checkQubits backend.configuration.numberOfQubits (circuit.readouts.map (·.qubit))).mapError .lowering
  return backend.job (← backend.program circuit)

def runStateful (backend : Backend R) (stateful : StatefulEngine Memory R) (memory : Memory)
    (circuit : Circuit R) : Except BackendError (Registers R) × Memory :=
  match backend.submission circuit with
  | .error error => (.error error, memory)
  | .ok job =>
    let (answer, memory) := stateful.submit memory job
    ((answer.mapError .engine).map fun result =>
      collect circuit.definitions circuit.readouts result.samples, memory)

theorem run_eq (backend : Backend R) (circuit : Circuit R) :
    backend.run circuit = (do
      let job ← backend.submission circuit
      let result ← (backend.engine.submit job).mapError .engine
      return collect circuit.definitions circuit.readouts result.samples) := by
  simp only [run, submission, bind_assoc, pure_bind]
  rfl

theorem runStateful_fst (backend : Backend R) (stateful : StatefulEngine Memory R) (memory : Memory)
    (circuit : Circuit R) :
    (backend.runStateful stateful memory circuit).1 =
      { backend with engine := stateful.current memory }.run circuit := by
  have same : { backend with engine := stateful.current memory }.submission circuit = backend.submission circuit :=
    rfl
  rw [run_eq, same, runStateful]
  cases backend.submission circuit with
  | error error => rfl
  | ok job => rfl

def attempts (backend : Backend R) (stateful : StatefulEngine Memory R) :
    Memory → List (Circuit R) → List (Except BackendError (Registers R))
  | _, [] => []
  | memory, circuit :: rest =>
    let (attempt, memory) := backend.runStateful stateful memory circuit
    attempt :: backend.attempts stateful memory rest

def runAllStateful (backend : Backend R) (stateful : StatefulEngine Memory R) :
    Memory → Registers R → List (Circuit R) → Except BackendError (Registers R)
  | _, merged, [] => .ok merged
  | memory, merged, circuit :: rest =>
    match backend.runStateful stateful memory circuit with
    | (.error error, _) => .error error
    | (.ok outputs, memory) => backend.runAllStateful stateful memory (merged.merge outputs) rest

theorem runAllStateful_eq (backend : Backend R) (stateful : StatefulEngine Memory R) (memory : Memory)
    (merged : Registers R) (circuits : List (Circuit R)) :
    backend.runAllStateful stateful memory merged circuits =
      mergeAttempts merged (backend.attempts stateful memory circuits) := by
  induction circuits generalizing memory merged with
  | nil => rfl
  | cons circuit rest ih =>
    rw [runAllStateful, attempts, mergeAttempts, List.foldlM_cons]
    rcases backend.runStateful stateful memory circuit with ⟨attempt, memory⟩
    cases attempt with
    | error error => rfl
    | ok outputs => exact ih memory (merged.merge outputs)

theorem attempts_ofEngine (backend : Backend R) (circuits : List (Circuit R)) :
    backend.attempts (.ofEngine backend.engine) () circuits = circuits.map backend.run := by
  induction circuits with
  | nil => rfl
  | cons circuit rest ih =>
    have first := backend.runStateful_fst (.ofEngine backend.engine) () circuit
    exact congrArg₂ List.cons first ih

theorem runRegisters_eq (backend : Backend R) (measurement : Measurement R) :
    backend.runRegisters measurement =
      backend.runAllStateful (.ofEngine backend.engine) () .empty measurement.runs := by
  rw [runAllStateful_eq, attempts_ofEngine, mergeAttempts, List.foldlM_map]
  rfl

theorem nodup_names_of_attempt {backend : Backend R} {stateful : StatefulEngine Memory R} {memory : Memory}
    {circuits : List (Circuit R)} {registers : Registers R}
    (attempted : .ok registers ∈ backend.attempts stateful memory circuits) (kind : RegisterKind) :
    (registers.names kind).Nodup := by
  induction circuits generalizing memory with
  | nil => cases attempted
  | cons circuit rest ih =>
    rcases List.mem_cons.1 attempted with first | later
    · have ran := (backend.runStateful_fst stateful memory circuit).symm.trans first.symm
      obtain ⟨_, _, _, _, _, _, rfl⟩ := run_ok ran
      rw [names_collect]
      exact Registers.nodup_names_ofDefinitions circuit.definitions kind
    · exact ih later

theorem lastWriter_runAllStateful (backend : Backend R) (stateful : StatefulEngine Memory R) (memory : Memory)
    (circuits : List (Circuit R)) :
    LastWriter (backend.attempts stateful memory circuits)
      (backend.runAllStateful stateful memory .empty circuits) := by
  rw [runAllStateful_eq]
  exact lastWriter_mergeAttempts fun outputs attempted => nodup_names_of_attempt attempted

/-- Running a measurement gives, for every kind and name, the rows of the last circuit that has the
register, and fails with the error of the first circuit that fails, where every circuit is run behind the
constant one. So it is on the backend's engine, which answers a job always alike, and on one that remembers. -/
theorem runRegisters_last_writer (backend : Backend R) (measurement : Measurement R) :
    let circuits := measurement.circuits.map fun circuit => measurement.constant.getD [] ++ circuit
    LastWriter (circuits.map backend.run) (backend.runRegisters measurement) ∧
      ∀ (Memory : Type) (stateful : StatefulEngine Memory R) (memory : Memory),
        LastWriter (backend.attempts stateful memory circuits)
          (backend.runAllStateful stateful memory .empty measurement.runs) := by
  intro circuits
  have runs : measurement.runs = circuits := rfl
  rw [runRegisters_eq, runs]
  refine ⟨?_, fun Memory stateful memory => ?_⟩
  · rw [← attempts_ofEngine]
    exact lastWriter_runAllStateful backend _ () circuits
  · exact lastWriter_runAllStateful backend stateful memory circuits

/-- The constant circuit declares the register and flips the qubit. The second circuit flips it back, and its
row stays. -/
theorem runRegisters_last_writer_constant :
    let engine : Engine Float := ⟨"once", 1, fun job =>
      .ok { jobId := job.id, samples := [.state [job.program.instructions.length == 1] none] }⟩
    let backend : Backend Float :=
      { configuration := {}, jobType := .sample, observable := none, assignment := none, engine, warnings := [] }
    let flip : Operation Float := .gate .pauliX #v[0] #v[]
    let constant : Circuit Float := [.define ⟨.bit, "ro", 1, true⟩, flip]
    let flipped : Circuit Float := [.measure 0 "ro" 0]
    let restored : Circuit Float := [flip, .measure 0 "ro" 0]
    ∃ merged, backend.runRegisters ⟨some constant, [flipped, restored], none⟩ = .ok merged ∧
      merged.rows? .bit "ro" = some [.bits [false]] := by
  intro engine backend flip constant flipped restored
  have first : backend.run (constant ++ flipped) = .ok ⟨⟨[("ro", [[true]])]⟩, .empty, .empty⟩ := rfl
  have second : backend.run (constant ++ restored) = .ok ⟨⟨[("ro", [[false]])]⟩, .empty, .empty⟩ := rfl
  obtain ⟨last, _⟩ := runRegisters_last_writer backend ⟨some constant, [flipped, restored], none⟩
  have listed : [flipped, restored].map (fun circuit => backend.run (constant ++ circuit)) =
      [backend.run (constant ++ flipped)] ++ [.ok ⟨⟨[("ro", [[false]])]⟩, .empty, .empty⟩] :=
    congrArg (fun attempt => [backend.run (constant ++ flipped), attempt]) second
  obtain ⟨merged, ok⟩ := last.succeeds.2 (by simp [first, second])
  exact ⟨merged, ok, (last.rows merged ok .bit "ro" _).2 ⟨_, _, [], listed, rfl, nofun⟩⟩

/-- An engine that measures one from its second job on: of the same circuit run twice, the row of the
second time stays. -/
example :
    let stateful : StatefulEngine Nat Float := ⟨"counting", 1, fun jobs job =>
      (.ok { jobId := job.id, samples := [.state [decide (0 < jobs)] none] }, jobs + 1)⟩
    let backend : Backend Float :=
      { configuration := {}, jobType := .sample, observable := none, assignment := none,
        engine := stateful.current 0, warnings := [] }
    let circuit : Circuit Float := [.define ⟨.bit, "ro", 1, true⟩, .measure 0 "ro" 0]
    (backend.runAllStateful stateful 0 .empty [circuit, circuit]).toOption.map (·.bits.entries) =
      some [("ro", [[true]])] := by
  decide +kernel

end Backend
end CircuitRunner
