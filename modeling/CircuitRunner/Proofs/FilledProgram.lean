import CircuitRunner.Proofs.LoweredInstruction
import CircuitRunner.Proofs.Unrolling
import Mathlib.Algebra.GroupWithZero.Nat
import Mathlib.Data.Finset.Card
import Mathlib.Data.List.Sort

/-! Programs with their idle qubits filled. Lowering with padding gives the program that it gives without, with
every gate followed by one identity on each qubit of the register that the gate does not act on. -/
namespace CircuitRunner

section Filling
variable {R : Type} {n : Nat}

/-- The second list is the first one filled: after every gate comes an identity on each qubit of the register that
is none of its operands, in ascending order, and after a reset nothing. -/
inductive Filled (n : Nat) : List (Instruction R) → List (Instruction R) → Prop
  | nil : Filled n [] []
  | reset {bare full : List (Instruction R)} (qubits : List Nat) (rest : Filled n bare full) :
      Filled n (.reset qubits :: bare) (.reset qubits :: full)
  | apply {bare full : List (Instruction R)} (application : Application R) {idle : List Nat}
      (ordered : idle.Pairwise (· < ·))
      (mem_iff : ∀ qubit, qubit ∈ idle ↔ qubit < n ∧ qubit ∉ application.operands)
      (rest : Filled n bare full) :
      Filled n (.apply application :: bare)
        (.apply application :: (idle.map fun qubit => .apply ⟨.i, [qubit]⟩) ++ full)

theorem Filled.unique {bare full other : List (Instruction R)} (first : Filled n bare full)
    (second : Filled n bare other) : full = other := by
  induction first generalizing other with
  | nil =>
    cases second
    rfl
  | reset qubits rest ih =>
    cases second with
    | reset _ following => rw [ih following]
  | apply application ordered mem_iff rest ih =>
    cases second with
    | apply _ ordered' mem_iff' following =>
      have same := ordered.eq_of_mem_iff ordered' fun qubit => (mem_iff qubit).trans (mem_iff' qubit).symm
      rw [same, ih following]

theorem operands_subset {operands : List Nat} (inside : ∀ operand ∈ operands, operand < n) :
    operands.toFinset ⊆ Finset.range n := by
  intro operand member
  exact Finset.mem_range.2 (inside operand (List.mem_toFinset.1 member))

theorem card_operands_le {operands : List Nat} (inside : ∀ operand ∈ operands, operand < n) :
    operands.toFinset.card ≤ n := by
  have bound := Finset.card_le_card (operands_subset inside)
  rwa [Finset.card_range] at bound

theorem length_idle {operands idle : List Nat} (inside : ∀ operand ∈ operands, operand < n)
    (ordered : idle.Pairwise (· < ·)) (mem_iff : ∀ qubit, qubit ∈ idle ↔ qubit < n ∧ qubit ∉ operands) :
    idle.length = n - operands.toFinset.card := by
  have rest : idle.toFinset = Finset.range n \ operands.toFinset := by
    ext qubit
    simp [mem_iff]
  have distinct : idle.Nodup := ordered.imp Nat.ne_of_lt
  rw [← List.toFinset_card_of_nodup distinct, rest, Finset.card_sdiff_of_subset (operands_subset inside),
    Finset.card_range]

/-- The length of a filled program: one for every reset, and for a gate one more than the qubits that it leaves. -/
theorem Filled.length {bare full : List (Instruction R)} (filled : Filled n bare full)
    (inside : ∀ instruction ∈ bare, ∀ qubit ∈ instruction.qubits, qubit < n) :
    full.length = bare.countP Instruction.isReset +
      ((bare.filterMap Instruction.application?).map
        fun application => 1 + n - application.operands.toFinset.card).sum := by
  induction filled with
  | nil => rfl
  | @reset bare full qubits rest ih =>
    have following := ih fun instruction member => inside instruction (List.mem_cons_of_mem _ member)
    have resets : (Instruction.reset qubits :: bare).countP Instruction.isReset =
        bare.countP Instruction.isReset + 1 := List.countP_cons_of_pos rfl
    have gates : (Instruction.reset qubits :: bare).filterMap Instruction.application? =
        bare.filterMap Instruction.application? := rfl
    rw [List.length_cons, following, resets, gates]
    omega
  | @apply bare full application idle ordered mem_iff rest ih =>
    have following := ih fun instruction member => inside instruction (List.mem_cons_of_mem _ member)
    have own : ∀ operand ∈ application.operands, operand < n := inside (.apply application) List.mem_cons_self
    have bound := card_operands_le own
    have resets : (Instruction.apply application :: bare).countP Instruction.isReset =
        bare.countP Instruction.isReset := List.countP_cons_of_neg Bool.false_ne_true
    have gates : (Instruction.apply application :: bare).filterMap Instruction.application? =
        application :: bare.filterMap Instruction.application? := rfl
    rw [List.cons_append, List.length_cons, List.length_append, List.length_map, following, resets, gates,
      List.map_cons, List.sum_cons, length_idle own ordered mem_iff]
    omega

def Instruction.filled (n : Nat) : Instruction R → List (Instruction R)
  | .reset qubits => [.reset qubits]
  | .apply application => .apply application :: (Lowering.mk n true none).idle application

theorem filled_flatMap (instructions : List (Instruction R)) :
    Filled n instructions (instructions.flatMap (Instruction.filled n)) := by
  induction instructions with
  | nil => exact .nil
  | cons instruction rest ih =>
    cases instruction with
    | reset qubits => exact .reset qubits ih
    | apply application =>
      refine .apply application (List.Pairwise.filter _ List.pairwise_lt_range) (fun qubit => ?_) ih
      simp

theorem flatMap_repeated (count : Nat) (instructions : List (Instruction R)) :
    (repeated count instructions).flatMap (Instruction.filled n) =
      repeated count (instructions.flatMap (Instruction.filled n)) := by
  induction count with
  | zero => rw [repeated_zero, repeated_zero, List.flatMap_nil]
  | succ count ih => rw [repeated_succ, repeated_succ, List.flatMap_append, ih]

end Filling

theorem Instruction.WellFormed.inside {R : Type} [Scalar R] {n : Nat} {instruction : Instruction R}
    (wellFormed : instruction.WellFormed n) : ∀ qubit ∈ instruction.qubits, qubit < n := by
  cases instruction with
  | apply application => exact Application.WellFormed.inside wellFormed
  | reset qubits => exact wellFormed

namespace Lowering
variable {R : Type} [Scalar R] [Literal R] (n : Nat) (resolver : Option (Resolver R))

theorem gate_filled (kind : GateKind) (operands : Vector Nat kind.arity)
    (parameters : Vector (Parameter R) kind.parameterCount) :
    (Lowering.mk n true resolver).operation (.gate kind operands parameters) =
      ((Lowering.mk n false resolver).operation (.gate kind operands parameters)).map
        (List.flatMap (Instruction.filled n)) := by
  rw [operation_gate, operation_gate]
  cases parameters.mapM (Parameter.resolve resolver) with
  | error error => rfl
  | ok arguments =>
    have sameChecks (instruction : Instruction R) :
        (Lowering.mk n true resolver).emit instruction = (Lowering.mk n false resolver).emit instruction := rfl
    simp only [bind, Except.bind, sameChecks]
    cases emitted : (Lowering.mk n false resolver).emit (.apply ⟨kind.toGate arguments, operands.toList⟩) with
    | error error => rfl
    | ok instructions =>
      obtain ⟨rfl, _⟩ := emit_ok emitted
      refine congrArg Except.ok ?_
      rw [List.flatMap_append]
      simp [Instruction.filled, idle]

mutual

theorem operation_filled (operation : Operation R) :
    (Lowering.mk n true resolver).operation operation =
      ((Lowering.mk n false resolver).operation operation).map (List.flatMap (Instruction.filled n)) := by
  cases operation with
  | gate kind operands parameters => exact gate_filled n resolver kind operands parameters
  | activeReset qubit =>
    rw [Lowering.operation, Lowering.operation, emit, emit]
    cases checkQubits n (Instruction.reset (R := R) [qubit]).qubits <;> rfl
  | loop repetitions body =>
    rw [Lowering.operation, Lowering.operation]
    cases repetitions.resolve resolver with
    | error error => rfl
    | ok value =>
      simp only [bind, Except.bind]
      cases repetitionCount value with
      | zero => rfl
      | succ count =>
        simp only [body_filled body]
        cases (Lowering.mk n false resolver).body body with
        | error error => rfl
        | ok instructions => exact congrArg Except.ok (flatMap_repeated (count + 1) instructions).symm
  | _ => rfl

theorem body_filled (body : List (Operation R)) :
    (Lowering.mk n true resolver).body body =
      ((Lowering.mk n false resolver).body body).map (List.flatMap (Instruction.filled n)) := by
  cases body with
  | nil => rfl
  | cons operation rest =>
    rw [Lowering.body, Lowering.body, operation_filled operation, body_filled rest]
    cases (Lowering.mk n false resolver).operation operation with
    | error error => rfl
    | ok first =>
      cases (Lowering.mk n false resolver).body rest with
      | error error => rfl
      | ok others => exact congrArg Except.ok List.flatMap_append.symm

end

/-- Padding fills every idle qubit exactly once. The circuit is refused with the same error, or the padded program
is the other one filled, and there is no other filling: its length counts the resets and, for every gate that is
executed, the gate and the qubits of the register less the distinct operands. -/
theorem program_filled (lowering : Lowering R) (circuit : Circuit R) :
    let padded := { lowering with identityPadding := true }
    let bare := { lowering with identityPadding := false }
    (∃ error, padded.program circuit = .error error ∧ bare.program circuit = .error error) ∨
      ∃ full rest, padded.program circuit = .ok full ∧ bare.program circuit = .ok rest ∧
        full.numberOfQubits = lowering.numberOfQubits ∧ rest.numberOfQubits = lowering.numberOfQubits ∧
        (∀ instructions, Filled lowering.numberOfQubits rest.instructions instructions ↔
          instructions = full.instructions) ∧
        (∀ application ∈ rest.applications, application.operands.toFinset.card ≤ lowering.numberOfQubits) ∧
        full.instructions.length = rest.instructions.countP Instruction.isReset +
          (rest.applications.map fun application =>
            1 + lowering.numberOfQubits - application.operands.toFinset.card).sum := by
  obtain ⟨n, identityPadding, resolver⟩ := lowering
  intro padded bare
  have filled : padded.body circuit = (bare.body circuit).map (List.flatMap (Instruction.filled n)) :=
    body_filled n resolver circuit
  cases lowered : bare.body circuit with
  | error error =>
    rw [lowered] at filled
    refine .inl ⟨error, ?_, ?_⟩
    · rw [program, filled]
      rfl
    · rw [program, lowered]
      rfl
  | ok instructions =>
    rw [lowered] at filled
    have inside (instruction : Instruction R) (member : instruction ∈ instructions) :
        ∀ qubit ∈ instruction.qubits, qubit < n := (emits_body lowered member).wellFormed.inside
    have fills : Filled n instructions (instructions.flatMap (Instruction.filled n)) := filled_flatMap instructions
    refine .inr ⟨⟨n, instructions.flatMap (Instruction.filled n)⟩, ⟨n, instructions⟩, ?_, ?_, rfl, rfl,
      ?_, ?_, fills.length inside⟩
    · rw [program, filled]
      rfl
    · rw [program, lowered]
      rfl
    · intro other
      exact ⟨fun second => second.unique fills, fun same => same ▸ fills⟩
    · intro application member
      obtain ⟨instruction, listed, found⟩ := List.mem_filterMap.1 member
      cases instruction with
      | reset qubits => cases found
      | apply other =>
        cases found
        exact card_operands_le (inside (.apply application) listed)

end Lowering
end CircuitRunner
