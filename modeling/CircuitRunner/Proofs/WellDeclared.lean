import CircuitRunner.Proofs.LoweredInstruction
import CircuitRunner.Proofs.Unrolling
import Mathlib.Data.List.Induction
import Mathlib.Data.List.Nodup

/-! What validation accepts. The walk through nested loop bodies is a walk over the operations with every body
written once in place, and the registers known on the way are those declared before. So a circuit is accepted
exactly if it is well declared, and refused with the error of the first operation that breaks this. -/
namespace CircuitRunner

variable {R : Type}

/-- No two declarations share kind and name, and every measurement comes after the declaration of a bit register of
its name that has its entry. -/
structure WellDeclared (operations : List (Operation R)) : Prop where
  apart : ((Circuit.definitions operations).map fun definition => (definition.kind, definition.name)).Nodup
  measured : ∀ before qubit readout index, before ++ [.measure qubit readout index] <+: operations →
    ∃ definition ∈ Circuit.definitions before,
      definition.kind = .bit ∧ definition.name = readout ∧ index < definition.length

inductive Offends (before : List (Operation R)) : Operation R → CircuitError → Prop
  | duplicate {definition earlier : Definition} (listed : earlier ∈ Circuit.definitions before)
      (kind : earlier.kind = definition.kind) (name : earlier.name = definition.name) :
      Offends before (.define definition) (.duplicateRegister definition.kind definition.name)
  | undefined {qubit index : Nat} {readout : String}
      (absent : ∀ definition ∈ Circuit.definitions before,
        ¬(definition.kind = .bit ∧ definition.name = readout)) :
      Offends before (.measure qubit readout index) (.undefinedRegister .bit readout)
  | outOfRange {qubit index : Nat} {readout : String} {definition : Definition}
      (listed : definition ∈ Circuit.definitions before) (kind : definition.kind = .bit)
      (name : definition.name = readout) (beyond : definition.length ≤ index) :
      Offends before (.measure qubit readout index) (.readoutIndexOutOfRange readout index definition.length)

def Declared.Models (declared : Declared) (operations : List (Operation R)) : Prop :=
  ∀ kind name length, declared.lookup (kind, name) = some length ↔
    ∃ definition ∈ Circuit.definitions operations,
      definition.kind = kind ∧ definition.name = name ∧ definition.length = length

theorem Operation.define_of_definition? {operation : Operation R} {definition : Definition}
    (declared : operation.definition? = some definition) : operation = .define definition := by
  cases operation with
  | define other => rw [Option.some.inj declared]
  | _ => cases declared

theorem Circuit.definitions_concat (operations : List (Operation R)) (operation : Operation R) :
    definitions (operations ++ [operation]) = definitions operations ++ operation.definition?.toList := by
  rw [definitions, List.filterMap_append, definitions]
  cases operation <;> rfl

namespace Declared.Models
variable {declared : Declared} {before : List (Operation R)}

theorem nil : Models [] ([] : List (Operation R)) := by
  intro kind name length
  simp [Circuit.definitions]

theorem lookup_eq_none (models : declared.Models before) {kind : RegisterKind} {name : String} :
    declared.lookup (kind, name) = none ↔
      ∀ definition ∈ Circuit.definitions before, ¬(definition.kind = kind ∧ definition.name = name) := by
  constructor
  · rintro absent definition listed ⟨sameKind, sameName⟩
    have known := (models kind name definition.length).2 ⟨definition, listed, sameKind, sameName, rfl⟩
    rw [absent] at known
    cases known
  · intro absent
    cases known : declared.lookup (kind, name) with
    | none => rfl
    | some length =>
      obtain ⟨definition, listed, sameKind, sameName, _⟩ := (models kind name length).1 known
      exact absurd ⟨sameKind, sameName⟩ (absent definition listed)

/-- An operation that declares nothing leaves the known registers as they are. -/
theorem silent (models : declared.Models before) {operation : Operation R} (quiet : operation.definition? = none) :
    declared.Models (before ++ [operation]) := by
  intro kind name length
  rw [Circuit.definitions_concat, quiet, Option.toList_none, List.append_nil]
  exact models kind name length

theorem define (models : declared.Models before) {definition : Definition}
    (fresh : declared.lookup (definition.kind, definition.name) = none) :
    Models (((definition.kind, definition.name), definition.length) :: declared) (before ++ [.define definition]) := by
  intro kind name length
  have joined : Circuit.definitions (before ++ [.define definition]) = Circuit.definitions before ++ [definition] :=
    Circuit.definitions_concat before (.define definition)
  rw [joined, List.lookup_cons]
  simp only [List.mem_append, List.mem_singleton, or_and_right, exists_or, exists_eq_left]
  split
  · rename_i same
    obtain ⟨rfl, rfl⟩ := Prod.mk.inj (eq_of_beq same)
    have absent := models.lookup_eq_none.1 fresh
    constructor
    · intro known
      exact .inr ⟨rfl, rfl, Option.some.inj known⟩
    · rintro (⟨earlier, listed, sameKind, sameName, _⟩ | ⟨_, _, rfl⟩)
      · exact absurd ⟨sameKind, sameName⟩ (absent earlier listed)
      · rfl
  · rename_i different
    rw [models kind name length]
    constructor
    · exact .inl
    · rintro (earlier | ⟨rfl, rfl, _⟩)
      · exact earlier
      · simp at different

/-- One step of validation fails exactly where the operation offends. -/
theorem validate_error_iff (models : declared.Models before) {operation : Operation R}
    (plain : operation.isLoop = false) {error : CircuitError} :
    operation.validate declared = .error error ↔ Offends before operation error := by
  cases operation with
  | loop repetitions body => cases plain
  | define definition =>
    rw [Operation.validate]
    split
    · rename_i length known
      obtain ⟨earlier, listed, kind, name, _⟩ := (models _ _ _).1 known
      constructor
      · intro failed
        cases failed
        exact .duplicate listed kind name
      · intro offends
        cases offends
        rfl
    · rename_i unknown
      refine iff_of_false nofun fun offends => ?_
      cases offends with
      | duplicate listed kind name => exact models.lookup_eq_none.1 unknown _ listed ⟨kind, name⟩
  | measure qubit readout index =>
    rw [Operation.validate]
    split
    · rename_i unknown
      have absent := models.lookup_eq_none.1 unknown
      constructor
      · intro failed
        cases failed
        exact .undefined absent
      · intro offends
        cases offends with
        | undefined _ => rfl
        | outOfRange listed kind name _ => exact absurd ⟨kind, name⟩ (absent _ listed)
    · rename_i length known
      obtain ⟨definition, listed, kind, name, rfl⟩ := (models _ _ _).1 known
      split
      · rename_i beyond
        constructor
        · intro failed
          cases failed
          exact .outOfRange listed kind name beyond
        · intro offends
          cases offends with
          | undefined absent => exact absurd ⟨kind, name⟩ (absent _ listed)
          | outOfRange other otherKind otherName _ =>
            have same := (models _ _ _).2 ⟨_, other, otherKind, otherName, rfl⟩
            rw [known] at same
            rw [Option.some.inj same]
      · rename_i inside
        refine iff_of_false nofun fun offends => ?_
        cases offends with
        | undefined absent => exact absent _ listed ⟨kind, name⟩
        | outOfRange other otherKind otherName beyond =>
          have same := (models _ _ _).2 ⟨_, other, otherKind, otherName, rfl⟩
          rw [known] at same
          rw [Option.some.inj same] at inside
          exact inside beyond
  | _ =>
    refine iff_of_false nofun fun offends => ?_
    cases offends

theorem validate_ok (models : declared.Models before) {operation : Operation R} (plain : operation.isLoop = false)
    {after : Declared} (valid : operation.validate declared = .ok after) : after.Models (before ++ [operation]) := by
  cases operation with
  | loop repetitions body => cases plain
  | define definition =>
    rw [Operation.validate] at valid
    split at valid
    · cases valid
    · rename_i fresh
      cases valid
      exact models.define fresh
  | measure qubit readout index =>
    rw [Operation.validate] at valid
    split at valid
    · cases valid
    · split at valid
      · cases valid
      · cases valid
        exact models.silent rfl
  | _ =>
    cases valid
    exact models.silent rfl

/-- Along a run of validation the known registers are those declared so far. -/
theorem run {operations : List (Operation R)} (plain : ∀ operation ∈ operations, operation.isLoop = false)
    {after : Declared} (ran : operations.foldlM Operation.validate [] = .ok after) : after.Models operations := by
  induction operations using List.reverseRecOn generalizing after with
  | nil =>
    cases ran
    exact .nil
  | append_singleton operations operation ih =>
    rw [foldlM_concat] at ran
    obtain ⟨middle, earlier, last⟩ := ok_of_bind ran
    have models := ih (fun other member => plain other (List.mem_append_left _ member)) earlier
    exact models.validate_ok (plain operation (by simp)) last

end Declared.Models

namespace WellDeclared
variable {operations : List (Operation R)} {operation : Operation R}

theorem nil : WellDeclared ([] : List (Operation R)) where
  apart := List.nodup_nil
  measured before qubit readout index begins := by simp at begins

theorem of_concat (well : WellDeclared (operations ++ [operation])) : WellDeclared operations where
  apart := by
    have apart := well.apart
    rw [Circuit.definitions_concat, List.map_append] at apart
    exact apart.of_append_left
  measured before qubit readout index begins :=
    well.measured before qubit readout index (begins.trans (List.prefix_append _ _))

theorem eq_of_key (well : WellDeclared operations) {first second : Definition}
    (firstListed : first ∈ Circuit.definitions operations) (secondListed : second ∈ Circuit.definitions operations)
    (kind : first.kind = second.kind) (name : first.name = second.name) : first = second :=
  List.inj_on_of_nodup_map well.apart firstListed secondListed (Prod.ext kind name)

theorem measure_inside (well : WellDeclared operations) {definition : Definition}
    (listed : definition ∈ Circuit.definitions operations) (bit : definition.kind = .bit) {qubit index : Nat}
    (measured : .measure qubit definition.name index ∈ operations) : index < definition.length := by
  obtain ⟨before, after, rfl⟩ := List.append_of_mem measured
  obtain ⟨other, earlier, kind, name, inside⟩ :=
    well.measured before qubit definition.name index ⟨after, by simp⟩
  have otherListed : other ∈ Circuit.definitions (before ++ .measure qubit definition.name index :: after) :=
    ((List.sublist_append_left before _).filterMap Operation.definition?).subset earlier
  rwa [well.eq_of_key otherListed listed (kind.trans bit.symm) name] at inside

theorem not_offends (well : WellDeclared (operations ++ [operation])) {error : CircuitError} :
    ¬Offends operations operation error := by
  intro offends
  cases offends with
  | @duplicate definition earlier listed kind name =>
    have apart := well.apart
    rw [Circuit.definitions_concat, List.map_append] at apart
    exact List.disjoint_of_nodup_append apart (List.mem_map_of_mem listed)
      (List.mem_singleton.2 (Prod.ext kind name))
  | undefined absent =>
    obtain ⟨definition, listed, kind, name, _⟩ := well.measured operations _ _ _ List.prefix_rfl
    exact absent definition listed ⟨kind, name⟩
  | outOfRange listed kind name beyond =>
    obtain ⟨other, otherListed, otherKind, otherName, inside⟩ := well.measured operations _ _ _ List.prefix_rfl
    have same := well.of_concat.eq_of_key otherListed listed (otherKind.trans kind.symm) (otherName.trans name.symm)
    rw [same] at inside
    omega

theorem concat (well : WellDeclared operations) (sound : ∀ error, ¬Offends operations operation error) :
    WellDeclared (operations ++ [operation]) where
  apart := by
    rw [Circuit.definitions_concat, List.map_append, List.nodup_append]
    refine ⟨well.apart, ?_, ?_⟩
    · cases operation.definition? <;> simp
    · intro key known other added same
      obtain ⟨earlier, listed, rfl⟩ := List.mem_map.1 known
      obtain ⟨definition, defined, rfl⟩ := List.mem_map.1 added
      obtain ⟨kind, name⟩ := Prod.mk.inj same
      obtain rfl := Operation.define_of_definition? (Option.mem_toList.1 defined)
      exact sound _ (.duplicate listed kind name)
  measured before qubit readout index begins := by
    rcases List.prefix_concat_iff.1 begins with last | earlier
    · obtain ⟨rfl, rfl⟩ := List.append_singleton_inj.1 last
      by_contra missing
      apply sound (.undefinedRegister .bit readout)
      apply Offends.undefined
      rintro definition listed ⟨kind, name⟩
      have beyond : definition.length ≤ index := by
        by_contra inside
        exact missing ⟨definition, listed, kind, name, by omega⟩
      exact sound _ (.outOfRange listed kind name beyond)
    · exact well.measured before qubit readout index earlier

end WellDeclared

/-- Validation runs through exactly the well-declared operations. -/
theorem validated_iff_wellDeclared {operations : List (Operation R)}
    (plain : ∀ operation ∈ operations, operation.isLoop = false) :
    (∃ after, operations.foldlM Operation.validate [] = .ok after) ↔ WellDeclared operations := by
  induction operations using List.reverseRecOn with
  | nil => exact iff_of_true ⟨[], rfl⟩ .nil
  | append_singleton operations operation ih =>
    have earlierPlain : ∀ other ∈ operations, other.isLoop = false :=
      fun other member => plain other (List.mem_append_left _ member)
    have lastPlain := plain operation (by simp)
    simp only [foldlM_concat]
    constructor
    · rintro ⟨after, ran⟩
      obtain ⟨middle, earlier, last⟩ := ok_of_bind ran
      have models := Declared.Models.run earlierPlain earlier
      refine ((ih earlierPlain).1 ⟨middle, earlier⟩).concat fun error offends => ?_
      rw [(models.validate_error_iff lastPlain).2 offends] at last
      cases last
    · intro well
      obtain ⟨middle, earlier⟩ := (ih earlierPlain).2 well.of_concat
      have models := Declared.Models.run earlierPlain earlier
      rw [earlier]
      cases last : operation.validate middle with
      | error error => exact absurd ((models.validate_error_iff lastPlain).1 last) well.not_offends
      | ok after => exact ⟨after, last⟩

namespace Operation

mutual

theorem validate_inlined (declared : Declared) (operation : Operation R) :
    validate declared operation = operation.inlined.foldlM validate declared := by
  cases operation with
  | loop repetitions body =>
    rw [validate, inlined]
    exact validateBody_inlined declared body
  | _ => exact (bind_pure _).symm

/-- The walk through nested bodies is the walk over the operations with every body written in place. -/
theorem validateBody_inlined (declared : Declared) (body : List (Operation R)) :
    validateBody declared body = (inlinedBody body).foldlM validate declared := by
  cases body with
  | nil => rfl
  | cons operation rest =>
    rw [validateBody, inlinedBody, List.foldlM_append, ← validate_inlined declared operation]
    cases validate declared operation with
    | error error => rfl
    | ok middle => exact validateBody_inlined middle rest

end

mutual

theorem not_isLoop_of_mem_inlined {operation member : Operation R} (listed : member ∈ operation.inlined) :
    member.isLoop = false := by
  cases operation with
  | loop repetitions body =>
    rw [inlined] at listed
    exact not_isLoop_of_mem_inlinedBody listed
  | _ =>
    rw [List.mem_singleton.1 listed]
    rfl

theorem not_isLoop_of_mem_inlinedBody {body : List (Operation R)} {member : Operation R}
    (listed : member ∈ inlinedBody body) : member.isLoop = false := by
  cases body with
  | nil => cases listed
  | cons operation rest =>
    rw [inlinedBody] at listed
    rcases List.mem_append.1 listed with first | later
    · exact not_isLoop_of_mem_inlined first
    · exact not_isLoop_of_mem_inlinedBody later

end

theorem inlinedBody_append (first second : List (Operation R)) :
    inlinedBody (first ++ second) = inlinedBody first ++ inlinedBody second := by
  induction first with
  | nil => rfl
  | cons operation rest ih => rw [List.cons_append, inlinedBody, inlinedBody, ih, List.append_assoc]

end Operation

namespace Circuit

theorem definitions_sublist (circuit : Circuit R) : circuit.definitions.Sublist (definitions circuit.inlined) := by
  unfold definitions inlined
  induction circuit with
  | nil => exact .slnil
  | cons operation rest ih =>
    rw [Operation.inlinedBody, List.filterMap_append]
    cases operation with
    | loop repetitions body => exact ih.trans (List.sublist_append_right _ _)
    | define definition => exact ih.cons_cons definition
    | _ => exact ih

theorem validate_eq (circuit : Circuit R) :
    circuit.validate = (circuit.inlined.foldlM Operation.validate []).map fun _ => () := by
  rw [validate, inlined, Operation.validateBody_inlined]

theorem plain_inlined (circuit : Circuit R) : ∀ operation ∈ circuit.inlined, operation.isLoop = false :=
  fun _ => Operation.not_isLoop_of_mem_inlinedBody

theorem validate_eq_ok_iff {circuit : Circuit R} : circuit.validate = .ok () ↔ WellDeclared circuit.inlined := by
  rw [← validated_iff_wellDeclared circuit.plain_inlined, validate_eq]
  cases circuit.inlined.foldlM Operation.validate [] <;> simp [Except.map]

theorem validate_eq_error_iff {circuit : Circuit R} {error : CircuitError} :
    circuit.validate = .error error ↔ ∃ before operation, before ++ [operation] <+: circuit.inlined ∧
      WellDeclared before ∧ Offends before operation error := by
  have run : circuit.validate = .error error ↔
      circuit.inlined.foldlM Operation.validate [] = .error error := by
    rw [validate_eq]
    cases circuit.inlined.foldlM Operation.validate [] <;> simp [Except.map]
  rw [run, foldlM_error_iff]
  refine exists_congr fun before => exists_congr fun operation => ?_
  simp only [exists_and_left]
  refine and_congr_right fun begins => ?_
  have plain := fun other member => circuit.plain_inlined other (begins.subset member)
  have plainBefore : ∀ other ∈ before, other.isLoop = false :=
    fun other member => plain other (List.mem_append_left _ member)
  -- What comes before the failing operation runs through, so it is well declared and its registers are known
  rw [← validated_iff_wellDeclared plainBefore, ← exists_and_right]
  refine exists_congr fun state => and_congr_right fun ran => ?_
  exact (Declared.Models.run plainBefore ran).validate_error_iff (plain operation (by simp))

/-- A circuit is accepted exactly if it is well declared once every loop body is written in place. Otherwise its
first operation that offends, in that order, gives the error, whatever comes after it. -/
theorem validate_wellDeclared (circuit : Circuit R) :
    (circuit.validate = .ok () ↔ WellDeclared circuit.inlined) ∧
      (∀ error, circuit.validate = .error error ↔
        ∃ before operation, before ++ [operation] <+: circuit.inlined ∧
          WellDeclared before ∧ Offends before operation error) ∧
      ∀ second : Circuit R,
        (∀ error, circuit.validate = .error error → Circuit.validate (circuit ++ second) = .error error) ∧
          (Circuit.validate (circuit ++ second) = .ok () → circuit.validate = .ok ()) := by
  refine ⟨validate_eq_ok_iff, fun error => validate_eq_error_iff, fun second => ?_⟩
  have fails (error : CircuitError) (failed : circuit.validate = .error error) :
      Circuit.validate (circuit ++ second) = .error error := by
    obtain ⟨before, operation, begins, well, offends⟩ := validate_eq_error_iff.1 failed
    have longer : circuit.inlined <+: Circuit.inlined (circuit ++ second) :=
      ⟨_, (Operation.inlinedBody_append circuit second).symm⟩
    exact validate_eq_error_iff.2 ⟨before, operation, begins.trans longer, well, offends⟩
  refine ⟨fails, fun valid => ?_⟩
  cases ran : circuit.validate with
  | error error =>
    rw [fails error ran] at valid
    cases valid
  | ok done => rfl

/-- A loop that never runs is read all the same: what it measures outside its register is refused, whatever
follows, and what it declares is there for the operations after it. Another kind may use the name again. -/
theorem validate_wellDeclared_unused_loop :
    let outside : Circuit Float := [.define ⟨.bit, "ro", 1, true⟩, .loop (.literal 0) [.measure 0 "ro" 1]]
    let nested : Circuit Float := [.loop (.literal 0) [.loop (.literal 0) [.define ⟨.bit, "ro", 2, true⟩]],
      .measure 0 "ro" 1, .define ⟨.float, "ro", 1, true⟩]
    (∀ second : Circuit Float,
        Circuit.validate (outside ++ second) = .error (.readoutIndexOutOfRange "ro" 1 1)) ∧
      ¬WellDeclared outside.inlined ∧ WellDeclared nested.inlined := by
  intro outside nested
  have refused : outside.validate = .error (.readoutIndexOutOfRange "ro" 1 1) := by decide +kernel
  have accepted : nested.validate = .ok () := by decide +kernel
  obtain ⟨wellDeclared, _, appended⟩ := validate_wellDeclared outside
  refine ⟨fun second => (appended second).1 _ refused, fun well => ?_, (validate_wellDeclared nested).1.1 accepted⟩
  rw [wellDeclared.2 well] at refused
  cases refused

end Circuit
end CircuitRunner
