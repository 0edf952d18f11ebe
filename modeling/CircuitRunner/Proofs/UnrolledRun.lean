import CircuitRunner.Double
import CircuitRunner.Proofs.BitRow
import CircuitRunner.Proofs.Unrolling
import CircuitRunner.RandomSource
import CircuitRunner.Simulator

/-! Running a circuit and running its unrolled form. Validation and readouts take every loop body
once, whatever its count. That agrees with the unrolled form as long as no register is declared
inside a loop and every loop that holds a measurement runs. -/
namespace CircuitRunner

/-- A summary of lists that is put together from parts and does not see repetitions. -/
structure Absorbing {α M : Type} (summary : List α → M) (join : M → M → M) : Prop where
  joined : ∀ first second, summary (first ++ second) = join (summary first) (summary second)
  again : ∀ items, join (summary items) (summary items) = summary items

section Shape
variable {R : Type}

namespace Operation

mutual

def declares : Operation R → Bool
  | .define _ => true
  | .loop _ body => declaresInBody body
  | _ => false

def declaresInBody : List (Operation R) → Bool
  | [] => false
  | operation :: rest => declares operation || declaresInBody rest

end

theorem readoutsInBody_append (first second : List (Operation R)) :
    readoutsInBody (first ++ second) = readoutsInBody first ++ readoutsInBody second := by
  induction first with
  | nil => rfl
  | cons operation rest ih => rw [List.cons_append, readoutsInBody, readoutsInBody, ih, List.append_assoc]

theorem absorbing_readouts {M : Type} {summary : List Readout → M} {join : M → M → M}
    (absorbing : Absorbing summary join) :
    Absorbing (fun operations : List (Operation R) => summary (readoutsInBody operations)) join where
  joined first second := by rw [readoutsInBody_append, absorbing.joined]
  again operations := absorbing.again _

theorem readoutsInBody_single (operation : Operation R) :
    readoutsInBody [operation] = operation.readouts := by
  rw [readoutsInBody, readoutsInBody, List.append_nil]

def readoutError? (declared : Declared) (readout : Readout) : Option CircuitError :=
  match declared.lookup (.bit, readout.register) with
  | none => some (.undefinedRegister .bit readout.register)
  | some length =>
    if length ≤ readout.index then
      some (.readoutIndexOutOfRange readout.register readout.index length)
    else none

def checkReadouts (declared : Declared) (readouts : List Readout) : Except CircuitError Declared :=
  match readouts.findSome? (readoutError? declared) with
  | some error => .error error
  | none => .ok declared

theorem absorbing_checkReadouts (declared : Declared) :
    Absorbing (checkReadouts declared) fun first second => first.bind fun _ => second where
  joined first second := by
    rw [checkReadouts, checkReadouts, List.findSome?_append]
    cases first.findSome? (readoutError? declared) <;> rfl
  again readouts := by cases checkReadouts declared readouts <;> rfl

theorem checkReadouts_ok {declared result : Declared} {readouts : List Readout}
    (ok : checkReadouts declared readouts = .ok result) : result = declared := by
  rw [checkReadouts] at ok
  split at ok
  · simp at ok
  · exact (Except.ok.inj ok).symm

theorem validate_measure (declared : Declared) (qubit : Nat) (readout : String) (index : Nat) :
    validate declared (.measure qubit readout index : Operation R) =
      checkReadouts declared [⟨qubit, readout, index⟩] := by
  simp only [validate, checkReadouts, readoutError?, List.findSome?_cons, List.findSome?_nil]
  cases declared.lookup (RegisterKind.bit, readout) with
  | none => rfl
  | some length => by_cases outside : length ≤ index <;> simp [outside]

mutual

/-- Without declarations, validation is a check of the readouts. -/
theorem validate_silent (declared : Declared) (operation : Operation R)
    (silent : operation.declares = false) :
    validate declared operation = checkReadouts declared operation.readouts := by
  cases operation with
  | define definition => simp [declares] at silent
  | measure qubit readout index => rw [validate_measure, readouts]
  | loop repetitions body =>
    rw [validate, readouts]
    exact validateBody_silent declared body (by simpa [declares] using silent)
  | _ => rfl

theorem validateBody_silent (declared : Declared) (body : List (Operation R))
    (silent : declaresInBody body = false) :
    validateBody declared body = checkReadouts declared (readoutsInBody body) := by
  cases body with
  | nil => rfl
  | cons operation rest =>
    obtain ⟨first, others⟩ := Bool.or_eq_false_iff.1 silent
    rw [validateBody, readoutsInBody, (absorbing_checkReadouts declared).joined,
      validate_silent declared operation first]
    cases checked : checkReadouts declared operation.readouts with
    | error error => rfl
    | ok result =>
      rw [checkReadouts_ok checked]
      exact validateBody_silent declared rest others

end

end Operation

namespace Circuit

end Circuit

namespace Unrolling

theorem andThen_complete {first second : Unrolling R} (complete : (first.andThen second).stopped = none) :
    first.stopped = none ∧ second.stopped = none ∧
      (first.andThen second).operations = first.operations ++ second.operations := by
  obtain ⟨operations, stopped⟩ := first
  cases stopped with
  | some error => simp [andThen] at complete
  | none => exact ⟨rfl, complete, rfl⟩

/-- A summary that is put together from parts and does not see repetitions leaves a part and its
copies alike. -/
theorem summary_copies {M : Type} (summary : List (Operation R) → M) {join : M → M → M}
    (absorbing : Absorbing summary join) {part : Unrolling R} {count : Nat}
    (complete : (copies (count + 1) part).stopped = none) :
    part.stopped = none ∧ summary (copies (count + 1) part).operations = summary part.operations := by
  induction count with
  | zero =>
    rw [copies, copies, andThen_nothing] at complete ⊢
    exact ⟨complete, rfl⟩
  | succ count ih =>
    obtain ⟨first, others, parts⟩ := andThen_complete complete
    refine ⟨first, ?_⟩
    rw [copies, parts, absorbing.joined, (ih others).2, absorbing.again]

end Unrolling
end Shape

variable {R : Type} [Scalar R] [Literal R]

namespace Operation

mutual

/-- Every loop that holds a measurement runs at least once, unless its count has no value. -/
def MeasuringLoopsRun (resolver : Option (Resolver R)) : Operation R → Prop
  | .loop repetitions body =>
    (readoutsInBody body ≠ [] →
      ∀ value, repetitions.resolve resolver = .ok value → repetitionCount value ≠ 0) ∧
    MeasuringLoopsRunInBody resolver body
  | _ => True

def MeasuringLoopsRunInBody (resolver : Option (Resolver R)) : List (Operation R) → Prop
  | [] => True
  | operation :: rest =>
    MeasuringLoopsRun resolver operation ∧ MeasuringLoopsRunInBody resolver rest

end

mutual

theorem summary_readouts_unroll {M : Type} {summary : List Readout → M} {join : M → M → M}
    (absorbing : Absorbing summary join) (resolver : Option (Resolver R)) (operation : Operation R)
    (running : operation.MeasuringLoopsRun resolver)
    (complete : (operation.unroll repetitionCount resolver).stopped = none) :
    summary (readoutsInBody (operation.unroll repetitionCount resolver).operations) = summary operation.readouts := by
  cases operation with
  | loop repetitions body =>
    obtain ⟨runs, inside⟩ := running
    rw [unroll] at complete ⊢
    cases resolved : repetitions.resolve resolver with
    | error error => simp [resolved] at complete
    | ok value =>
      simp only [resolved] at complete ⊢
      rw [readouts]
      cases counted : repetitionCount value with
      | zero =>
        -- A loop that does not run vanishes, so nothing of its body may be read out.
        have silent : readoutsInBody body = [] := by
          by_contra measures
          exact runs measures value resolved counted
        rw [silent]
        rfl
      | succ count =>
        rw [counted] at complete
        obtain ⟨whole, same⟩ := Unrolling.summary_copies _ (absorbing_readouts absorbing) complete
        exact same.trans (summary_readouts_unrollBody absorbing resolver body inside whole)
  | _ => rw [unroll_of_not_loop rfl, readoutsInBody_single]

theorem summary_readouts_unrollBody {M : Type} {summary : List Readout → M} {join : M → M → M}
    (absorbing : Absorbing summary join) (resolver : Option (Resolver R)) (body : List (Operation R))
    (running : MeasuringLoopsRunInBody resolver body)
    (complete : (unrollBody repetitionCount resolver body).stopped = none) :
    summary (readoutsInBody (unrollBody repetitionCount resolver body).operations) = summary (readoutsInBody body) := by
  cases body with
  | nil => rfl
  | cons operation rest =>
    obtain ⟨first, others, parts⟩ := Unrolling.andThen_complete complete
    rw [unrollBody, parts, readoutsInBody_append, readoutsInBody, absorbing.joined, absorbing.joined,
      summary_readouts_unroll absorbing resolver operation running.1 first,
      summary_readouts_unrollBody absorbing resolver rest running.2 others]

end

end Operation

namespace Circuit

/-- Every loop that holds a measurement runs at least once. -/
def MeasuringLoopsRun (resolver : Option (Resolver R)) (circuit : Circuit R) : Prop :=
  Operation.MeasuringLoopsRunInBody resolver circuit

end Circuit

namespace Backend

def oneQubit : Backend Float where
  configuration := {}
  jobType := .sample
  observable := none
  assignment := none
  engine := Simulator.engine RandomSource.draw 0
  warnings := []

end Backend
end CircuitRunner
