import CircuitRunner.Double
import CircuitRunner.Proofs.GateTables
import CircuitRunner.Proofs.Unrolling

/-! Values put in place of symbols. Lowering with a resolver gives the program that lowering without
one gives for the circuit in which every symbol that resolves is replaced by its value. Parameters
that lowering never looks at do not matter. -/
namespace CircuitRunner

def LoweringError.aboutParameter : LoweringError → Bool
  | .unresolvedParameter _ | .resolution _ => true
  | _ => false

/-- Outcomes that are equal, or refusals about a parameter on both sides. -/
inductive Alike {α : Type} : Except LoweringError α → Except LoweringError α → Prop
  | same (outcome : Except LoweringError α) : Alike outcome outcome
  | refused {error other : LoweringError} (first : error.aboutParameter = true)
      (second : other.aboutParameter = true) : Alike (.error error) (.error other)

namespace Alike
variable {α β : Type}

theorem bind {first second : Except LoweringError α} (alike : Alike first second)
    {next next' : α → Except LoweringError β} (continues : ∀ value, Alike (next value) (next' value)) :
    Alike (first >>= next) (second >>= next') := by
  cases alike with
  | refused about about' => exact .refused about about'
  | same =>
    cases first with
    | error error => exact .same _
    | ok value => exact continues value

theorem map {first second : Except LoweringError α} (alike : Alike first second) (change : α → β) :
    Alike (first.map change) (second.map change) := by
  cases alike with
  | same => exact .same _
  | refused about about' => exact .refused about about'

theorem ok_iff {first second : Except LoweringError α} (alike : Alike first second) (value : α) :
    first = .ok value ↔ second = .ok value := by
  cases alike with
  | same => exact Iff.rfl
  | refused => exact iff_of_false nofun nofun

theorem of_map {first second : Except LoweringError α} {change : α → β}
    (injective : Function.Injective change) (alike : Alike (first.map change) (second.map change)) :
    Alike first second := by
  cases first with
  | error error =>
    cases second with
    | error other =>
      cases alike with
      | same => exact .same _
      | refused about about' => exact .refused about about'
    | ok value => cases alike
  | ok value =>
    have mapped : second.map change = .ok (change value) := (alike.ok_iff (change value)).1 rfl
    cases second with
    | error error => cases mapped
    | ok other =>
      rw [injective (Except.ok.inj mapped)]
      exact .same _

theorem mapM {first second : α → Except LoweringError β} (each : ∀ item, Alike (first item) (second item))
    (items : List α) : Alike (items.mapM first) (items.mapM second) := by
  induction items with
  | nil => exact .same _
  | cons item items ih =>
    rw [List.mapM_cons, List.mapM_cons]
    exact (each item).bind fun value => ih.map (value :: ·)

end Alike

variable {R : Type}

namespace Parameter

def substitute (resolver : Option (Resolver R)) (parameter : Parameter R) : Parameter R :=
  match parameter.resolve resolver with
  | .ok value => .literal value
  | .error _ => parameter

theorem refused_of_resolve {resolver : Option (Resolver R)} {parameter : Parameter R} {error : LoweringError}
    (refused : parameter.resolve resolver = .error error) : error.aboutParameter = true := by
  cases parameter with
  | literal value => cases refused
  | symbol expression =>
    cases resolver with
    | none => cases refused; rfl
    | some resolve =>
      rw [Parameter.resolve] at refused
      cases resolved : resolve expression <;> rw [resolved] at refused <;> cases refused
      rfl

theorem resolve_substitute (resolver : Option (Resolver R)) (parameter : Parameter R) :
    Alike (parameter.resolve resolver) ((parameter.substitute resolver).resolve none) := by
  unfold substitute
  cases resolved : parameter.resolve resolver with
  | ok value => exact .same _
  | error error =>
    cases parameter with
    | literal value => cases resolved
    | symbol expression => exact .refused (refused_of_resolve resolved) rfl

theorem mapM_resolve_substitute {count : Nat} (resolver : Option (Resolver R))
    (parameters : Vector (Parameter R) count) :
    Alike (parameters.mapM (Parameter.resolve resolver))
      ((parameters.map (substitute resolver)).mapM (Parameter.resolve none)) := by
  have injective : Function.Injective (Vector.toList (α := R) (n := count)) :=
    fun _ _ same => Vector.toList_inj.1 same
  refine .of_map injective ?_
  rw [Vector.mapM_map, toList_mapM, toList_mapM]
  exact .mapM (resolve_substitute resolver) parameters.toList

end Parameter

namespace Operation

mutual

def substitute (resolver : Option (Resolver R)) : Operation R → Operation R
  | .gate kind operands parameters => .gate kind operands (parameters.map (Parameter.substitute resolver))
  | .loop repetitions body => .loop (repetitions.substitute resolver) (substituteBody resolver body)
  | .stopParallel qubits executionTime => .stopParallel qubits (executionTime.substitute resolver)
  | .globalPhase phase => .globalPhase (phase.substitute resolver)
  | .damping qubit gateTime rate =>
    .damping qubit (gateTime.substitute resolver) (rate.substitute resolver)
  | .conditional register index body => .conditional register index (substituteBody resolver body)
  | operation => operation

def substituteBody (resolver : Option (Resolver R)) : List (Operation R) → List (Operation R)
  | [] => []
  | operation :: rest => substitute resolver operation :: substituteBody resolver rest

end

variable [Scalar R] [Literal R]

mutual

/-- The operation with everything that lowering never looks at blanked out: the parameters of
operations without a gate, and the bodies that are not entered. -/
def used (resolver : Option (Resolver R)) : Operation R → Operation R
  | .loop repetitions body =>
    match repetitions.resolve resolver with
    | .ok value =>
      .loop repetitions (if repetitionCount value = 0 then [] else usedBody resolver body)
    | .error _ => .loop repetitions []
  | .stopParallel qubits _ => .stopParallel qubits (.literal 0)
  | .globalPhase _ => .globalPhase (.literal 0)
  | .damping qubit _ _ => .damping qubit (.literal 0) (.literal 0)
  | .conditional register index _ => .conditional register index []
  | operation => operation

def usedBody (resolver : Option (Resolver R)) : List (Operation R) → List (Operation R)
  | [] => []
  | operation :: rest => used resolver operation :: usedBody resolver rest

end

end Operation

namespace Circuit

def substitute (resolver : Option (Resolver R)) (circuit : Circuit R) : Circuit R :=
  Operation.substituteBody resolver circuit

def used [Scalar R] [Literal R] (resolver : Option (Resolver R)) (circuit : Circuit R) : Circuit R :=
  Operation.usedBody resolver circuit

end Circuit

namespace Lowering
variable [Scalar R] [Literal R]

def literal (lowering : Lowering R) : Lowering R := { lowering with resolver := none }

theorem gate_substitute (lowering : Lowering R) (kind : GateKind) (operands : Vector Nat kind.arity)
    (parameters : Vector (Parameter R) kind.parameterCount) :
    Alike (lowering.operation (.gate kind operands parameters))
      (lowering.literal.operation (.gate kind operands (parameters.map (Parameter.substitute lowering.resolver)))) := by
  have arguments := Parameter.mapM_resolve_substitute lowering.resolver parameters
  simp only [Lowering.operation, Operation.application_gate]
  refine (arguments.map _).bind fun application => ?_
  cases application with
  | none => exact .same _
  | some application => exact .same _

mutual

theorem operation_substitute (lowering : Lowering R) (operation : Operation R) :
    Alike (lowering.operation operation)
      (lowering.literal.operation (operation.substitute lowering.resolver)) := by
  cases operation with
  | gate kind operands parameters => exact gate_substitute lowering kind operands parameters
  | loop repetitions body =>
    rw [Operation.substitute, Lowering.operation, Lowering.operation]
    refine (repetitions.resolve_substitute lowering.resolver).bind fun value => ?_
    cases repetitionCount value with
    | zero => exact .same _
    | succ count => exact (body_substitute lowering body).bind fun _ => .same _
  | _ => exact .same _

theorem body_substitute (lowering : Lowering R) (body : List (Operation R)) :
    Alike (lowering.body body) (lowering.literal.body (Operation.substituteBody lowering.resolver body)) := by
  cases body with
  | nil => exact .same _
  | cons operation rest =>
    rw [Operation.substituteBody, Lowering.body, Lowering.body]
    refine (operation_substitute lowering operation).bind fun first => ?_
    exact (body_substitute lowering rest).bind fun others => .same _

end

mutual

theorem operation_used (lowering : Lowering R) (operation : Operation R) :
    lowering.operation (operation.used lowering.resolver) = lowering.operation operation := by
  cases operation with
  | loop repetitions body =>
    cases resolved : repetitions.resolve lowering.resolver with
    | error error => simp only [Operation.used, resolved, Lowering.operation, bind, Except.bind]
    | ok value =>
      simp only [Operation.used, resolved, Lowering.operation, bind, Except.bind]
      cases count : repetitionCount value with
      | zero => rfl
      | succ times => rw [if_neg (Nat.succ_ne_zero times), body_used lowering body]
  | _ => rfl

theorem body_used (lowering : Lowering R) (body : List (Operation R)) :
    lowering.body (Operation.usedBody lowering.resolver body) = lowering.body body := by
  cases body with
  | nil => rfl
  | cons operation rest =>
    rw [Operation.usedBody, Lowering.body, Lowering.body, operation_used lowering operation,
      body_used lowering rest]

end

end Lowering
end CircuitRunner
