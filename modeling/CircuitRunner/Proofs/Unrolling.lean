import CircuitRunner.Lowering

/-! Loops written out. Unrolling replaces each loop by copies of its unrolled body and looks
at nothing but loop counts. Lowering a circuit is the same as lowering its unrolled form, where
a count that does not resolve is met only after everything before it was lowered. -/
namespace CircuitRunner

/-- What unrolling makes of a circuit: the operations up to the first loop whose count does not
resolve, and the error of that loop if there is one. -/
structure Unrolling (R : Type) where
  operations : Circuit R
  stopped : Option LoweringError

namespace Unrolling
variable {R : Type}

def nothing : Unrolling R := ⟨[], none⟩

def andThen (first second : Unrolling R) : Unrolling R :=
  match first.stopped with
  | some _ => first
  | none => ⟨first.operations ++ second.operations, second.stopped⟩

def copies : Nat → Unrolling R → Unrolling R
  | 0, _ => nothing
  | count + 1, part => part.andThen (copies count part)

@[simp] theorem nothing_andThen (part : Unrolling R) : nothing.andThen part = part := rfl

@[simp] theorem andThen_nothing (part : Unrolling R) : part.andThen nothing = part := by
  obtain ⟨operations, stopped⟩ := part
  cases stopped <;> simp [andThen, nothing]

theorem andThen_assoc (first second third : Unrolling R) :
    (first.andThen second).andThen third = first.andThen (second.andThen third) := by
  obtain ⟨operations, stopped⟩ := first
  obtain ⟨operations', stopped'⟩ := second
  cases stopped <;> cases stopped' <;> simp [andThen]

theorem mem_andThen {operation : Operation R} {first second : Unrolling R}
    (member : operation ∈ (first.andThen second).operations) :
    operation ∈ first.operations ∨ operation ∈ second.operations := by
  obtain ⟨operations, stopped⟩ := first
  cases stopped with
  | some error => exact .inl member
  | none => exact List.mem_append.1 member

theorem mem_copies {operation : Operation R} {part : Unrolling R} {count : Nat}
    (member : operation ∈ (copies count part).operations) : operation ∈ part.operations := by
  induction count with
  | zero => simp [copies, nothing] at member
  | succ count ih =>
    rcases mem_andThen member with inFirst | inOthers
    · exact inFirst
    · exact ih inOthers

end Unrolling

theorem repeated_zero {α : Type} (items : List α) : repeated 0 items = [] := by
  simp [repeated]

theorem repeated_succ {α : Type} (count : Nat) (items : List α) :
    repeated (count + 1) items = items ++ repeated count items := by
  cases items with
  | nil => rfl
  | cons item rest => simp [repeated, List.replicate_succ]

variable {R : Type}

def Operation.isLoop : Operation R → Bool
  | .loop .. => true
  | _ => false

def Circuit.LoopFree (circuit : Circuit R) : Prop := ∀ operation ∈ circuit, operation.isLoop = false

namespace Operation

mutual

/-- A loop becomes as many copies of its unrolled body as its count stands for. Everything else, a conditional
with its body included, stays as it is. -/
def unroll (count : R → Nat) (resolver : Option (Resolver R)) : Operation R → Unrolling R
  | .loop repetitions body =>
    match repetitions.resolve resolver with
    | .error error => ⟨[], some error⟩
    | .ok value => .copies (count value) (unrollBody count resolver body)
  | operation => ⟨[operation], none⟩

def unrollBody (count : R → Nat) (resolver : Option (Resolver R)) : List (Operation R) → Unrolling R
  | [] => .nothing
  | operation :: rest => (unroll count resolver operation).andThen (unrollBody count resolver rest)

end

mutual

/-- The operation without the loops that never run and without the bodies of loops whose count
does not resolve, at any depth. -/
def withoutIdle (count : R → Nat) (resolver : Option (Resolver R)) : Operation R → List (Operation R)
  | .loop repetitions body =>
    match repetitions.resolve resolver with
    | .error _ => [.loop repetitions []]
    | .ok value =>
      if count value = 0 then []
      else [.loop repetitions (withoutIdleBody count resolver body)]
  | operation => [operation]

def withoutIdleBody (count : R → Nat) (resolver : Option (Resolver R)) : List (Operation R) → List (Operation R)
  | [] => []
  | operation :: rest => withoutIdle count resolver operation ++ withoutIdleBody count resolver rest

end

theorem unroll_of_not_loop {count : R → Nat} {resolver : Option (Resolver R)} {operation : Operation R}
    (plain : operation.isLoop = false) : operation.unroll count resolver = ⟨[operation], none⟩ := by
  cases operation with
  | loop repetitions body => simp [isLoop] at plain
  | _ => rfl

theorem withoutIdle_of_not_loop {count : R → Nat} {resolver : Option (Resolver R)} {operation : Operation R}
    (plain : operation.isLoop = false) : operation.withoutIdle count resolver = [operation] := by
  cases operation with
  | loop repetitions body => simp [isLoop] at plain
  | _ => rfl

theorem unrollBody_append (count : R → Nat) (resolver : Option (Resolver R)) (first second : List (Operation R)) :
    unrollBody count resolver (first ++ second) =
      (unrollBody count resolver first).andThen (unrollBody count resolver second) := by
  induction first with
  | nil => rfl
  | cons operation rest ih =>
    rw [List.cons_append, unrollBody, unrollBody, ih, Unrolling.andThen_assoc]

theorem unrollBody_single (count : R → Nat) (resolver : Option (Resolver R)) (operation : Operation R) :
    unrollBody count resolver [operation] = operation.unroll count resolver := by
  rw [unrollBody, unrollBody, Unrolling.andThen_nothing]

mutual

theorem unroll_withoutIdle (count : R → Nat) (resolver : Option (Resolver R)) (operation : Operation R) :
    unrollBody count resolver (operation.withoutIdle count resolver) = operation.unroll count resolver := by
  cases operation with
  | loop repetitions body =>
    cases resolved : repetitions.resolve resolver with
    | error error =>
      simp only [withoutIdle, resolved, unrollBody_single, unroll]
    | ok value =>
      by_cases idle : count value = 0
      · simp only [withoutIdle, resolved, idle, if_true, unrollBody, unroll, Unrolling.copies]
      · simp only [withoutIdle, resolved, idle, if_false, unrollBody_single, unroll,
          unrollBody_withoutIdle count resolver body]
  | _ => rw [withoutIdle_of_not_loop rfl, unrollBody_single]

theorem unrollBody_withoutIdle (count : R → Nat) (resolver : Option (Resolver R)) (body : List (Operation R)) :
    unrollBody count resolver (withoutIdleBody count resolver body) = unrollBody count resolver body := by
  cases body with
  | nil => rfl
  | cons operation rest =>
    rw [withoutIdleBody, unrollBody_append, unroll_withoutIdle count resolver operation,
      unrollBody_withoutIdle count resolver rest, unrollBody]

end

section Members
variable (source result : Operation R → Prop) (count : R → Nat) (resolver : Option (Resolver R))

mutual

/-- What loops hand down to the operations of their bodies holds of everything unrolled. -/
theorem forall_mem_unroll
    (enter : ∀ repetitions body, source (.loop repetitions body) → ∀ inner ∈ body, source inner)
    (plain : ∀ operation, operation.isLoop = false → source operation → result operation)
    (operation : Operation R) (holds : source operation) :
    ∀ unrolled ∈ (operation.unroll count resolver).operations, result unrolled := by
  cases operation with
  | loop repetitions body =>
    rw [unroll]
    intro unrolled member
    cases resolved : repetitions.resolve resolver with
    | error error => simp [resolved] at member
    | ok value =>
      rw [resolved] at member
      exact forall_mem_unrollBody enter plain body (enter repetitions body holds) unrolled
        (Unrolling.mem_copies member)
  | _ =>
    intro unrolled member
    rw [unroll_of_not_loop rfl, List.mem_singleton] at member
    exact member ▸ plain _ rfl holds

theorem forall_mem_unrollBody
    (enter : ∀ repetitions body, source (.loop repetitions body) → ∀ inner ∈ body, source inner)
    (plain : ∀ operation, operation.isLoop = false → source operation → result operation)
    (body : List (Operation R)) (holds : ∀ inner ∈ body, source inner) :
    ∀ unrolled ∈ (unrollBody count resolver body).operations, result unrolled := by
  cases body with
  | nil => simp [unrollBody, Unrolling.nothing]
  | cons operation rest =>
    intro unrolled member
    rcases Unrolling.mem_andThen member with inFirst | inRest
    · exact forall_mem_unroll enter plain operation (holds operation (by simp)) unrolled inFirst
    · exact forall_mem_unrollBody enter plain rest (fun inner inside => holds inner (by simp [inside]))
        unrolled inRest

end

end Members

end Operation

namespace Circuit

def unrollBy (count : R → Nat) (resolver : Option (Resolver R)) (circuit : Circuit R) : Unrolling R :=
  Operation.unrollBody count resolver circuit

def withoutIdle (count : R → Nat) (resolver : Option (Resolver R)) (circuit : Circuit R) : Circuit R :=
  Operation.withoutIdleBody count resolver circuit

theorem loopFree_unrollBy (count : R → Nat) (resolver : Option (Resolver R)) (circuit : Circuit R) :
    (circuit.unrollBy count resolver).operations.LoopFree :=
  Operation.forall_mem_unrollBody (fun _ => True) (·.isLoop = false) count resolver
    (fun _ _ _ _ _ => trivial) (fun _ plain _ => plain) circuit (fun _ _ => trivial)

end Circuit

variable [Scalar R] [Literal R]

def Circuit.unroll (resolver : Option (Resolver R)) (circuit : Circuit R) : Unrolling R :=
  circuit.unrollBy repetitionCount resolver

namespace Unrolling

/-- The instructions of an unrolling. An error among its operations comes before the one that
stopped it. -/
def lower (lowering : Lowering R) (unrolling : Unrolling R) :
    Except LoweringError (List (Instruction R)) := do
  let instructions ← lowering.body unrolling.operations
  match unrolling.stopped with
  | none => return instructions
  | some error => .error error

end Unrolling

namespace Lowering

theorem body_append (lowering : Lowering R) (first second : List (Operation R)) :
    lowering.body (first ++ second) = do
      return (← lowering.body first) ++ (← lowering.body second) := by
  induction first with
  | nil =>
    rw [List.nil_append, body]
    cases lowering.body second <;> rfl
  | cons operation rest ih =>
    rw [List.cons_append, body, body, ih]
    cases lowering.operation operation <;> cases lowering.body rest <;>
      cases lowering.body second <;> simp [bind, Except.bind, pure, Except.pure]

theorem body_single (lowering : Lowering R) (operation : Operation R) :
    lowering.body [operation] = lowering.operation operation := by
  rw [body, body]
  cases lowering.operation operation <;> simp [bind, Except.bind, pure, Except.pure]

theorem lower_andThen (lowering : Lowering R) (first second : Unrolling R) :
    (first.andThen second).lower lowering = do
      return (← first.lower lowering) ++ (← second.lower lowering) := by
  obtain ⟨operations, stopped⟩ := first
  cases stopped with
  | some error =>
    simp only [Unrolling.andThen, Unrolling.lower]
    cases lowering.body operations <;> rfl
  | none =>
    simp only [Unrolling.andThen, Unrolling.lower, body_append]
    cases lowering.body operations <;> cases lowering.body second.operations <;>
      cases second.stopped <;> rfl

theorem lower_copies (lowering : Lowering R) (part : Unrolling R) (count : Nat) :
    (Unrolling.copies (count + 1) part).lower lowering = do
      return repeated (count + 1) (← part.lower lowering) := by
  induction count with
  | zero =>
    rw [Unrolling.copies, Unrolling.copies, Unrolling.andThen_nothing]
    cases part.lower lowering with
    | error error => rfl
    | ok instructions => simp [repeated_succ, repeated_zero, bind, Except.bind, pure, Except.pure]
  | succ count ih =>
    rw [Unrolling.copies, lower_andThen, ih]
    cases part.lower lowering with
    | error error => rfl
    | ok instructions => simp [repeated_succ _ instructions, bind, Except.bind, pure, Except.pure]

theorem lower_single (lowering : Lowering R) (operation : Operation R) :
    (⟨[operation], none⟩ : Unrolling R).lower lowering = lowering.operation operation := by
  rw [Unrolling.lower, body_single]
  cases lowering.operation operation <;> rfl

mutual

theorem operation_unroll (lowering : Lowering R) (operation : Operation R) :
    lowering.operation operation = (operation.unroll repetitionCount lowering.resolver).lower lowering := by
  cases operation with
  | loop repetitions body =>
    rw [Lowering.operation, Operation.unroll]
    cases repetitions.resolve lowering.resolver with
    | error error => rfl
    | ok value =>
      -- A body that runs is lowered once and its instructions repeated; one that does not
      -- run leaves nothing on either side.
      change (match repetitionCount value with
        | 0 => Except.ok []
        | count + 1 => do return repeated (count + 1) (← lowering.body body)) =
          (Unrolling.copies (repetitionCount value)
            (Operation.unrollBody repetitionCount lowering.resolver body)).lower lowering
      cases repetitionCount value with
      | zero => rfl
      | succ count => rw [lower_copies, ← body_unroll lowering body]
  | _ => rw [Operation.unroll_of_not_loop rfl, lower_single]

theorem body_unroll (lowering : Lowering R) (operations : List (Operation R)) :
    lowering.body operations =
      (Operation.unrollBody repetitionCount lowering.resolver operations).lower lowering := by
  cases operations with
  | nil => rfl
  | cons operation rest =>
    rw [body, Operation.unrollBody, lower_andThen, operation_unroll lowering operation,
      body_unroll lowering rest]

end

theorem program_lower (lowering : Lowering R) (circuit : Circuit R) :
    lowering.program circuit = ((circuit.unroll lowering.resolver).lower lowering).map fun instructions =>
      ⟨lowering.numberOfQubits, instructions⟩ := by
  rw [program, body_unroll]
  rfl

/-- An error among the unrolled operations comes before the one that stopped the unrolling. -/
theorem program_unrolled (lowering : Lowering R) (circuit : Circuit R) :
    lowering.program circuit = (lowering.program (circuit.unroll lowering.resolver).operations).bind
      fun program => (circuit.unroll lowering.resolver).stopped.elim (.ok program) .error := by
  rw [program_lower, Unrolling.lower, program]
  cases lowering.body (circuit.unroll lowering.resolver).operations <;>
    cases (circuit.unroll lowering.resolver).stopped <;> rfl

/-- Bodies that never run make no difference. -/
theorem program_withoutIdle (lowering : Lowering R) (circuit : Circuit R) :
    lowering.program (circuit.withoutIdle repetitionCount lowering.resolver) = lowering.program circuit := by
  have same : Circuit.unroll lowering.resolver (circuit.withoutIdle repetitionCount lowering.resolver) =
      circuit.unroll lowering.resolver := Operation.unrollBody_withoutIdle _ _ _
  rw [program_lower, same, ← program_lower]

end Lowering
end CircuitRunner
