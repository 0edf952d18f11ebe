import Mathlib
import CircuitRunner.Proofs.InPlaceSweep

/-! Gates with a rule of their own, applied in place. A loop over the basis states looks at their bits through a
mask and changes one amplitude at a time, or a basis state and its partner together. No loop meets an amplitude
that it has changed before, so it leaves the state that the gate makes of the old one, in any arithmetic. -/
namespace CircuitRunner

namespace Basis

def mask (qubits : List Nat) : Nat := qubits.foldr (fun qubit others => Nat.pow 2 qubit ||| others) 0

theorem testBit_mask (qubits : List Nat) (bit : Nat) : (mask qubits).testBit bit = decide (bit ∈ qubits) := by
  induction qubits with
  | nil => simp [mask]
  | cons qubit rest ih =>
    change (2 ^ qubit ||| mask rest).testBit bit = _
    rw [Nat.testBit_or, Nat.testBit_two_pow, ih]
    by_cases own : qubit = bit
    · simp [own]
    · simp [own, Ne.symm own]

theorem and_mask_eq_mask (qubits : List Nat) (index : Nat) :
    (index &&& mask qubits == mask qubits) = qubits.all index.testBit := by
  rw [Bool.eq_iff_iff, beq_iff_eq, List.all_eq_true]
  constructor
  · intro same qubit listed
    have bit := congrArg (·.testBit qubit) same
    simpa [testBit_mask, listed] using bit
  · intro set
    apply Nat.eq_of_testBit_eq
    intro bit
    rw [Nat.testBit_and, testBit_mask]
    by_cases listed : bit ∈ qubits
    · simp [listed, set bit listed]
    · simp [listed]

theorem and_mask_eq_zero (qubit index : Nat) : (index &&& mask [qubit] == 0) = !index.testBit qubit := by
  have single : mask [qubit] = 2 ^ qubit := Nat.or_zero _
  rw [single, Nat.and_two_pow]
  cases index.testBit qubit <;> simp

theorem or_mask {qubit index : Nat} (unset : index.testBit qubit = false) :
    index ||| mask [qubit] = flip qubit index := by
  apply Nat.eq_of_testBit_eq
  intro bit
  rw [Nat.testBit_or, testBit_mask, testBit_flip]
  by_cases own : bit = qubit
  · subst own
    simp [unset]
  · simp [own, Ne.symm own]

theorem flip_comm (first second index : Nat) : flip first (flip second index) = flip second (flip first index) :=
  Nat.xor_right_comm _ _ _

theorem testBit_exchange (first second index : Nat) :
    (exchange first second index).testBit first = index.testBit second ∧
      (exchange first second index).testBit second = index.testBit first := by
  unfold exchange
  by_cases same : first = second
  · subst same
    simp
  · by_cases differ : index.testBit first = index.testBit second
    · simp [differ]
    · have opposite : index.testBit first = !index.testBit second := Bool.eq_not.2 differ
      simp [opposite, testBit_flip, same, Ne.symm same]

theorem exchange_exchange (first second index : Nat) : exchange first second (exchange first second index) = index := by
  obtain ⟨atFirst, atSecond⟩ := testBit_exchange first second index
  by_cases differ : (index.testBit first != index.testBit second) = true
  · have moved : exchange first second index = flip first (flip second index) := if_pos differ
    have again : ((exchange first second index).testBit first != (exchange first second index).testBit second) =
        true := by
      rw [atFirst, atSecond, bne_comm]
      exact differ
    have back : exchange first second (exchange first second index) =
        flip first (flip second (exchange first second index)) := if_pos again
    rw [back, moved, flip_comm first second (flip first _), flip_flip, flip_flip]
  · have kept : exchange first second index = index := if_neg differ
    rw [kept, kept]

end Basis

namespace State

section Loops
variable {K : Type} {n : Nat} [Zero K]

def changeEach (change : Nat → K → K) (state : State K n) : State K n :=
  (List.range (Basis.size n)).foldl (fun state index => state.write index (change index (state.amplitude index))) state

def mix (change : K → K → K × K) (partner : Nat → Nat) (state : State K n) (index : Nat) : State K n :=
  let mixed := change (state.amplitude index) (state.amplitude (partner index))
  (state.write index mixed.1).write (partner index) mixed.2

/-- Mixes the amplitudes of each selected basis state with those of its partner, one pair after the other. -/
def mixWhere (selected : Nat → Bool) (partner : Nat → Nat) (change : K → K → K × K) (state : State K n) :
    State K n :=
  ((List.range (Basis.size n)).filter selected).foldl (mix change partner) state

theorem amplitude_changeEach_of_nodup (change : Nat → K → K) {indices : List Nat} (distinct : indices.Nodup)
    (state : State K n) {index : Nat} (inside : index < Basis.size n) :
    (indices.foldl (fun state index => state.write index (change index (state.amplitude index))) state).amplitude
        index = if index ∈ indices then change index (state.amplitude index) else state.amplitude index := by
  induction indices generalizing state with
  | nil => rfl
  | cons first rest ih =>
    obtain ⟨fresh, distinct⟩ := List.nodup_cons.1 distinct
    rw [List.foldl_cons, ih distinct]
    by_cases own : index = first
    · subst own
      rw [if_neg fresh, if_pos List.mem_cons_self, amplitude_write_self _ inside]
    · rw [amplitude_write_of_ne _ (Ne.symm own)]
      simp only [List.mem_cons, own, false_or]

theorem changeEach_eq (change : Nat → K → K) (state : State K n) :
    state.changeEach change = state.mapAmplitudes change := by
  apply ext_amplitude
  intro index inside
  rw [changeEach, amplitude_changeEach_of_nodup change List.nodup_range state inside,
    if_pos (List.mem_range.2 inside), mapAmplitudes, amplitude_tabulate _ inside]

section Pairs
variable {partner : Nat → Nat} (change : K → K → K × K)

theorem amplitude_mix_own (state : State K n) {index : Nat} (apart : partner index ≠ index)
    (inside : index < Basis.size n) : (mix change partner state index).amplitude index =
      (change (state.amplitude index) (state.amplitude (partner index))).1 := by
  rw [mix, amplitude_write_of_ne _ apart, amplitude_write_self _ inside]

theorem amplitude_mix_partner (state : State K n) {index : Nat} (inside : partner index < Basis.size n) :
    (mix change partner state index).amplitude (partner index) =
      (change (state.amplitude index) (state.amplitude (partner index))).2 := by
  rw [mix, amplitude_write_self _ inside]

theorem amplitude_mix_other (state : State K n) {first index : Nat} (own : first ≠ index)
    (other : partner first ≠ index) : (mix change partner state first).amplitude index = state.amplitude index := by
  rw [mix, amplitude_write_of_ne _ other, amplitude_write_of_ne _ own]

/-- After some of the pairs, their amplitudes are mixed and all others are as they were. -/
theorem amplitude_mixAll (involutive : ∀ index, partner (partner index) = index) {bases : List Nat}
    (distinct : bases.Nodup) (apart : ∀ base ∈ bases, partner base ∉ bases) (state : State K n) {index : Nat}
    (inside : index < Basis.size n) :
    (bases.foldl (mix change partner) state).amplitude index =
      if index ∈ bases then (change (state.amplitude index) (state.amplitude (partner index))).1
      else if partner index ∈ bases then (change (state.amplitude (partner index)) (state.amplitude index)).2
      else state.amplitude index := by
  induction bases generalizing state with
  | nil => rfl
  | cons first rest ih =>
    obtain ⟨fresh, distinct⟩ := List.nodup_cons.1 distinct
    obtain ⟨lone, others⟩ := List.forall_mem_cons.1 apart
    obtain ⟨moved, unlisted⟩ := not_or.1 (mt List.mem_cons.2 lone)
    rw [List.foldl_cons, ih distinct fun base member => mt (List.mem_cons_of_mem _) (others base member)]
    by_cases own : index = first
    · subst own
      rw [if_neg fresh, if_neg unlisted, if_pos List.mem_cons_self, amplitude_mix_own change state moved inside]
    · by_cases other : partner index = first
      · subst other
        rw [involutive] at moved unlisted lone
        have back : partner (partner index) < Basis.size n := by rwa [involutive]
        have mixed := amplitude_mix_partner change state back
        rw [involutive] at mixed
        rw [if_neg unlisted, if_neg fresh, if_neg lone, if_pos List.mem_cons_self, mixed]
      · -- The later pairs read amplitudes that the first one has not touched.
        have away : partner first ≠ index := fun same => other (by rw [← same, involutive])
        have apartToo : partner first ≠ partner index := fun same => own (by
          rw [← involutive index, ← same, involutive])
        rw [amplitude_mix_other change state (Ne.symm own) away,
          amplitude_mix_other change state (Ne.symm other) apartToo]
        simp only [List.mem_cons, own, other, false_or]

/-- A loop only looks at the partners of selected basis states. -/
theorem mixWhere_congr {selected : Nat → Bool} {first second : Nat → Nat}
    (agree : ∀ index, selected index = true → first index = second index) (state : State K n) :
    state.mixWhere selected first change = state.mixWhere selected second change := by
  refine List.foldl_ext _ _ _ fun state index member => ?_
  rw [mix, mix, agree index (List.mem_filter.1 member).2]

theorem amplitude_mixWhere {selected : Nat → Bool} (involutive : ∀ index, partner (partner index) = index)
    (apart : ∀ index, selected index = true → selected (partner index) = false) (state : State K n)
    (bounded : ∀ index < Basis.size n, partner index < Basis.size n) {index : Nat}
    (inside : index < Basis.size n) :
    (state.mixWhere selected partner change).amplitude index =
      if selected index then (change (state.amplitude index) (state.amplitude (partner index))).1
      else if selected (partner index) then (change (state.amplitude (partner index)) (state.amplitude index)).2
      else state.amplitude index := by
  have chosen (place : Nat) (small : place < Basis.size n) :
      place ∈ (List.range (Basis.size n)).filter selected ↔ selected place = true := by
    rw [List.mem_filter, List.mem_range]
    exact and_iff_right small
  rw [mixWhere, amplitude_mixAll change involutive (List.nodup_range.filter _) ?_ state inside]
  · simp only [chosen index inside, chosen _ (bounded index inside)]
  · intro base member listed
    have out := apart base (List.mem_filter.1 member).2
    rw [(List.mem_filter.1 listed).2] at out
    cases out

end Pairs

def mixQubit (condition : Nat → Bool) (qubit : Nat) (change : K → K → K × K) (state : State K n) : State K n :=
  state.mixWhere (fun index => condition index && index &&& Basis.mask [qubit] == 0) (· ||| Basis.mask [qubit]) change

theorem amplitude_mixQubit (condition : Nat → Bool) {qubit : Nat} (inside : qubit < n) (change : K → K → K × K)
    (state : State K n) {index : Nat} (small : index < Basis.size n) :
    (state.mixQubit condition qubit change).amplitude index =
      if condition (Basis.clear qubit index) then
        if index.testBit qubit then (change (state.amplitude (Basis.flip qubit index)) (state.amplitude index)).2
        else (change (state.amplitude index) (state.amplitude (Basis.flip qubit index))).1
      else state.amplitude index := by
  have partners : state.mixQubit condition qubit change =
      state.mixWhere (fun index => condition index && !index.testBit qubit) (Basis.flip qubit) change := by
    simp only [mixQubit, Basis.and_mask_eq_zero]
    refine mixWhere_congr change (fun index chosen => Basis.or_mask ?_) state
    simpa using (Bool.and_eq_true_iff.1 chosen).2
  have opposite (place : Nat) : (Basis.flip qubit place).testBit qubit = !place.testBit qubit := by
    simp [Basis.testBit_flip]
  rw [partners, amplitude_mixWhere change (Basis.flip_flip qubit) ?_ state (fun _ => Basis.flip_lt inside) small]
  · simp only [opposite, Basis.clear]
    by_cases value : index.testBit qubit = true <;> simp [value]
  · intro place chosen
    have unset : place.testBit qubit = false := by simpa using (Bool.and_eq_true_iff.1 chosen).2
    simp [opposite, unset]

end Loops

variable {R : Type} [Scalar R] {n : Nat} (state : State (ComplexNumber R) n)
open ComplexNumber

def controlledXInPlace (controls : List Nat) (target : Nat) : State (ComplexNumber R) n :=
  state.mixQubit (fun index => index &&& Basis.mask controls == Basis.mask controls) target
    fun own other => (other, own)

def pauliYInPlace (qubit : Nat) : State (ComplexNumber R) n :=
  state.mixQubit (fun _ => true) qubit fun own other => (-imaginaryUnit * other, imaginaryUnit * own)

def hadamardInPlace (qubit : Nat) : State (ComplexNumber R) n :=
  let factor : R := 1 / Scalar.sqrt 2.0
  state.mixQubit (fun _ => true) qubit fun own other => (scale factor (own + other), scale factor (own - other))

def swapInPlace (first second : Nat) : State (ComplexNumber R) n :=
  state.mixWhere (fun index => index &&& Basis.mask [first] != 0 && index &&& Basis.mask [second] == 0)
    (fun index => Basis.clear first index ||| Basis.mask [second]) fun own other => (other, own)

def phaseShiftInPlace (qubits : List Nat) (angle : R) : State (ComplexNumber R) n :=
  state.changeEach fun index value =>
    if index &&& Basis.mask qubits == Basis.mask qubits then value * phase angle else value

def rotateZInPlace (qubit : Nat) (angle : R) : State (ComplexNumber R) n :=
  state.changeEach fun index value =>
    value * (if index &&& Basis.mask [qubit] == 0 then phase (-angle / 2.0) else phase (angle / 2.0))

theorem controlledXInPlace_eq (controls : List Nat) {target : Nat} (inside : target < n) :
    state.controlledXInPlace controls target = state.controlledX controls target := by
  apply ext_amplitude
  intro index small
  rw [controlledXInPlace, amplitude_mixQubit _ inside _ state small, controlledX, permute, amplitude_tabulate _ small,
    Basis.and_mask_eq_mask]
  cases controls.all (Basis.clear target index).testBit <;> simp

theorem pauliYInPlace_eq {qubit : Nat} (inside : qubit < n) : state.pauliYInPlace qubit = state.pauliY qubit := by
  apply ext_amplitude
  intro index small
  rw [pauliYInPlace, amplitude_mixQubit _ inside _ state small, if_pos rfl, pauliY, amplitude_tabulate _ small]

theorem hadamardInPlace_eq {qubit : Nat} (inside : qubit < n) :
    state.hadamardInPlace qubit = state.hadamard qubit := by
  apply ext_amplitude
  intro index small
  rw [hadamardInPlace, amplitude_mixQubit _ inside _ state small, if_pos rfl, hadamard, amplitude_tabulate _ small]
  cases index.testBit qubit <;> rfl

theorem phaseShiftInPlace_eq (qubits : List Nat) (angle : R) :
    state.phaseShiftInPlace qubits angle = state.phaseShift qubits angle := by
  simp only [phaseShiftInPlace, Basis.and_mask_eq_mask, changeEach_eq]
  rfl

theorem rotateZInPlace_eq (qubit : Nat) (angle : R) :
    state.rotateZInPlace qubit angle = state.rotateZ qubit angle := by
  simp only [rotateZInPlace, Basis.and_mask_eq_zero, changeEach_eq, rotateZ]
  congr 1
  funext index value
  cases index.testBit qubit <;> rfl

theorem swapInPlace_eq {first second : Nat} (firstInside : first < n) (secondInside : second < n) :
    state.swapInPlace first second = state.swap first second := by
  have partners : state.swapInPlace first second = state.mixWhere
      (fun index => index.testBit first && !index.testBit second) (Basis.exchange first second)
      fun own other => (other, own) := by
    simp only [swapInPlace, bne, Basis.and_mask_eq_zero, Bool.not_not]
    refine mixWhere_congr _ (fun index chosen => ?_) state
    obtain ⟨set, unset⟩ := Bool.and_eq_true_iff.1 chosen
    rw [Bool.not_eq_true'] at unset
    have other : first ≠ second := by
      rintro rfl
      rw [set] at unset
      cases unset
    have cleared : (Basis.flip first index).testBit second = false := by
      simp [Basis.testBit_flip, unset, other]
    rw [Basis.clear, if_pos set, Basis.or_mask cleared, Basis.exchange, set, unset, Basis.flip_comm]
    rfl
  apply ext_amplitude
  intro index small
  rw [partners, amplitude_mixWhere _ (Basis.exchange_exchange first second) ?_ state
    (fun _ => Basis.exchange_lt firstInside secondInside) small, swap, permute, amplitude_tabulate _ small]
  · obtain ⟨atFirst, atSecond⟩ := Basis.testBit_exchange first second index
    simp only [atFirst, atSecond]
    unfold Basis.exchange
    cases index.testBit first <;> cases index.testBit second <;> rfl
  · intro place chosen
    obtain ⟨atFirst, atSecond⟩ := Basis.testBit_exchange first second place
    obtain ⟨set, _⟩ := Bool.and_eq_true_iff.1 chosen
    simp [atFirst, atSecond, set]

def loop? : Gate R → List Nat → Option (State (ComplexNumber R) n)
  | .i, [_] => some state
  | .x, [q] => some (state.controlledXInPlace [] q)
  | .y, [q] => some (state.pauliYInPlace q)
  | .z, [q] => some (state.phaseShiftInPlace [q] Scalar.pi)
  | .h, [q] => some (state.hadamardInPlace q)
  | .s, [q] => some (state.phaseShiftInPlace [q] (Scalar.pi / 2.0))
  | .t, [q] => some (state.phaseShiftInPlace [q] (Scalar.pi / 4.0))
  | .ph angle, [q] => some (state.phaseShiftInPlace [q] angle)
  | .rz angle, [q] => some (state.rotateZInPlace q angle)
  | .cnot, [c, t] => some (state.controlledXInPlace [c] t)
  | .csign, [c, t] => some (state.phaseShiftInPlace [c, t] Scalar.pi)
  | .swap, [p, q] => some (state.swapInPlace p q)
  | .ccnot, [c, d, t] => some (state.controlledXInPlace [c, d] t)
  | _, _ => none

/-- Every gate with a rule of its own gives the state that its loop leaves. -/
theorem apply_eq_loop (gate : Gate R) (operands : List Nat) (kernel : gate.hasKernel = true)
    (arity : operands.length = gate.arity) (inside : ∀ operand ∈ operands, operand < n) :
    ∃ result, state.loop? gate operands = some result ∧ state.apply ⟨gate, operands⟩ = .ok result := by
  have looped {result rule : State (ComplexNumber R) n} (loop : state.loop? gate operands = some result)
      (applied : state.apply ⟨gate, operands⟩ = within operands rule) (same : result = rule) :
      ∃ result, state.loop? gate operands = some result ∧ state.apply ⟨gate, operands⟩ = .ok result := by
    refine ⟨result, loop, ?_⟩
    rw [applied, within_ok _ inside, same]
  cases gate with
  | rx | ry | iswap | controlled | matrix => cases kernel
  | i =>
    obtain ⟨qubit, rfl⟩ := List.length_eq_one_iff.1 arity
    exact ⟨state, rfl, rfl⟩
  | x =>
    obtain ⟨qubit, rfl⟩ := List.length_eq_one_iff.1 arity
    exact looped rfl rfl (controlledXInPlace_eq state [] (inside qubit (List.mem_singleton_self _)))
  | y =>
    obtain ⟨qubit, rfl⟩ := List.length_eq_one_iff.1 arity
    exact looped rfl rfl (pauliYInPlace_eq state (inside qubit (List.mem_singleton_self _)))
  | h =>
    obtain ⟨qubit, rfl⟩ := List.length_eq_one_iff.1 arity
    exact looped rfl rfl (hadamardInPlace_eq state (inside qubit (List.mem_singleton_self _)))
  | z | s | t | ph =>
    obtain ⟨qubit, rfl⟩ := List.length_eq_one_iff.1 arity
    exact looped rfl rfl (phaseShiftInPlace_eq state [qubit] _)
  | rz angle =>
    obtain ⟨qubit, rfl⟩ := List.length_eq_one_iff.1 arity
    exact looped rfl rfl (rotateZInPlace_eq state qubit angle)
  | cnot =>
    obtain ⟨control, target, rfl⟩ := List.length_eq_two.1 arity
    exact looped rfl rfl (controlledXInPlace_eq state [control] (inside target (by simp)))
  | csign =>
    obtain ⟨control, target, rfl⟩ := List.length_eq_two.1 arity
    exact looped rfl rfl (phaseShiftInPlace_eq state [control, target] _)
  | swap =>
    obtain ⟨first, second, rfl⟩ := List.length_eq_two.1 arity
    exact looped rfl rfl (swapInPlace_eq state (inside first (by simp)) (inside second (by simp)))
  | ccnot =>
    obtain ⟨first, second, target, rfl⟩ := List.length_eq_three.1 arity
    exact looped rfl rfl (controlledXInPlace_eq state [first, second] (inside target (by simp)))

end State
end CircuitRunner
