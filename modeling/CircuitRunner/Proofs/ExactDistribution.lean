import Mathlib
import CircuitRunner.Double
import CircuitRunner.Proofs.GateIsometry
import CircuitRunner.Proofs.MergedRegisters
import CircuitRunner.Proofs.ProductAverage
import CircuitRunner.Proofs.SimulatedSamples
import CircuitRunner.RandomSource

/-! Measurements without shots. The simulator reports every state with its probability, but rows
are collected without it, so evaluation takes the mean in which every reported state counts the
same. It is the expectation value where each of the reported states has its equal share of the
probability. -/
namespace CircuitRunner

def Sample.outcome? {R : Type} : Sample R → Option (List Bool × R)
  | .state bits (some probability) => some (bits, probability)
  | _ => none

def Simulator.probability {R : Type} [Scalar R] {n : Nat} (branches : List (Branch R n)) (index : Nat) : R :=
  accumulate (branches.map fun branch => branch.weight * (branch.state.amplitude index).normSq)

theorem Simulator.mixture_eq {R : Type} [Scalar R] {n : Nat} (branches : List (Branch R n)) :
    mixture branches = (List.range (Basis.size n)).map (probability branches) := rfl

/-- The reported states are those of a probability above the cutoff, in index order. -/
theorem Simulator.distribution_eq {R : Type} [Scalar R] {program : Program R}
    {branches : List (Branch R program.numberOfQubits)} (evolved : ensemble program = .ok branches) :
    distribution program = .ok ((List.range (Basis.size program.numberOfQubits)).filterMap fun index =>
      if Scalar.less cutoff (probability branches index) then
        some (.state (Basis.bits program.numberOfQubits index) (some (probability branches index)))
      else none) := by
  have listed : (mixture branches).zipIdx =
      (List.range (Basis.size program.numberOfQubits)).map fun index => (probability branches index, index) := by
    apply List.ext_getElem
    · simp [mixture_eq]
    · intro index _ _
      simp [mixture_eq]
  rw [distribution, evolved]
  refine congrArg Except.ok ?_
  change List.filterMap _ (mixture branches).zipIdx = _
  rw [listed, List.filterMap_map]
  rfl

open ComplexNumber in
/-- A qubit turned from the ground state by a gate with real amplitudes. -/
theorem State.apply_amplitudes (alpha beta : ℝ) :
    ∃ moved,
      (State.ground 1).apply ⟨GateKind.singleQubitGate.toGate #v[alpha, 0, beta, 0, 0], [0]⟩ = .ok moved ∧
      (moved.amplitude 0).normSq = alpha ^ 2 ∧ (moved.amplitude 1).normSq = beta ^ 2 := by
  let operator : Operator (ComplexNumber ℝ) := .ofRows
    [[phase 0 * ⟨alpha, 0⟩, phase 0 * ⟨-beta, 0⟩], [phase 0 * ⟨beta, 0⟩, phase 0 * ⟨alpha, -0⟩]]
  have applied : (State.ground 1).apply ⟨GateKind.singleQubitGate.toGate #v[alpha, 0, beta, 0, 0], [0]⟩ =
      .ok ((State.ground 1).applyOperator operator [0]) :=
    (State.ground 1).apply_eq_applyOperator rfl rfl ⟨le_refl 2, le_refl 2⟩ (by decide)
  have zero : ((State.ground 1).applyOperator operator [0]).amplitude 0 = phase 0 * ⟨alpha, 0⟩ := by
    rw [State.amplitude_single _ _ _ (by decide)]
    simp [Operator.entry_ofRows, operator, State.ground, State.amplitude, State.tabulate, Basis.size, Basis.flip]
  have one : ((State.ground 1).applyOperator operator [0]).amplitude 1 = phase 0 * ⟨beta, 0⟩ := by
    rw [State.amplitude_single _ _ _ (by decide)]
    simp [Operator.entry_ofRows, operator, State.ground, State.amplitude, State.tabulate, Basis.size, Basis.flip]
  have square (value : ℝ) : (phase 0 * ⟨value, 0⟩ : ComplexNumber ℝ).normSq = value ^ 2 := by
    rw [normSq_mul, normSq_phase]
    simp [normSq, sq]
  exact ⟨_, applied, zero ▸ square alpha, one ▸ square beta⟩

namespace Backend
section General
variable {R : Type} [Scalar R] [Literal R]

def samples (backend : Backend R) (circuit : Circuit R) : List (Sample R) :=
  match backend.program circuit with
  | .error _ => []
  | .ok program =>
    match backend.engine.submit (backend.job program) with
    | .error _ => []
    | .ok result => result.samples

def collected (backend : Backend R) (circuit : Circuit R) : Registers R :=
  collect circuit.definitions circuit.readouts (backend.samples circuit)

structure Accepts (backend : Backend R) (circuit : Circuit R) : Prop where
  valid : circuit.validate = .ok ()
  inside : checkQubits backend.configuration.numberOfQubits (circuit.readouts.map (·.qubit)) = .ok ()
  answered : ∃ program, backend.program circuit = .ok program ∧
    ∃ result, backend.engine.submit (backend.job program) = .ok result

theorem run_succeeds (backend : Backend R) (circuit : Circuit R) :
    SucceedsWith (backend.run circuit) (backend.Accepts circuit) (backend.collected circuit) := by
  intro registers
  constructor
  · intro ran
    obtain ⟨valid, inside, program, result, lowered, submitted, rfl⟩ := run_ok ran
    refine ⟨⟨valid, inside, program, lowered, result, submitted⟩, ?_⟩
    rw [collected, samples, lowered]
    simp only [submitted]
  · rintro ⟨⟨valid, inside, program, lowered, result, submitted⟩, rfl⟩
    simp only [run, collected, samples, valid, inside, lowered, submitted]
    change (Except.mapError _ (backend.engine.submit (backend.job program)) >>= _) = _
    rw [submitted]
    rfl

theorem rows_collected {circuit : Circuit R} (backend : Backend R) (valid : circuit.validate = .ok ())
    (name : String) :
    (backend.collected circuit).rows? .bit name = (circuit.output? .bit name).map fun definition =>
      (((backend.samples circuit).filterMap Sample.bits?).map fun bits =>
        rowEntries circuit.readouts bits definition).map .bits := by
  rw [collected, rows?_collect_of_valid valid]
  cases found : circuit.output? .bit name with
  | none => rfl
  | some definition =>
    rw [Option.map_some, bitRows_of_samples (Circuit.kind_of_output? found)]
    rfl

def merged (backend : Backend R) (circuits : List (Circuit R)) : Registers R :=
  .mergeAll (circuits.map backend.collected)

theorem rows?_merged (backend : Backend R) (circuits : List (Circuit R)) (kind : RegisterKind) (name : String) :
    (backend.merged circuits).rows? kind name =
      circuits.reverse.findSome? fun circuit => (backend.collected circuit).rows? kind name := by
  have distinct : ∀ registers ∈ circuits.map backend.collected, ∀ kind, (registers.names kind).Nodup := by
    intro registers member kind
    obtain ⟨circuit, _, rfl⟩ := List.mem_map.1 member
    rw [collected, names_collect]
    exact Registers.nodup_names_ofDefinitions circuit.definitions kind
  rw [merged, Registers.rows?_mergeAll distinct, ← List.map_reverse, List.findSome?_map]
  rfl

theorem runRegisters_succeeds (backend : Backend R) (measurement : Measurement R) :
    SucceedsWith (backend.runRegisters measurement)
      (∀ circuit ∈ measurement.runs, backend.Accepts circuit) (backend.merged measurement.runs) := by
  rw [merged, Registers.mergeAll, List.foldl_map]
  apply SucceedsWith.foldlM
  intro merged circuit
  exact (run_succeeds backend circuit).bind_pure merged.merge

/-- The rows of a bit register in the last circuit that has it, each with the probability that the
engine reports for its state. -/
def reported (backend : Backend R) (circuits : List (Circuit R)) (name : String) :
    List (List Bool × R) :=
  (circuits.reverse.findSome? fun circuit => (circuit.output? .bit name).map fun definition =>
    ((backend.samples circuit).filterMap Sample.outcome?).map fun outcome =>
      (rowEntries circuit.readouts outcome.1 definition, outcome.2)).getD []

section Simulated
variable {Seed : Type} {draw : Seed → R × Seed} {seed : Seed} {maxQubits : Nat} {backend : Backend R}

/-- Without shots, the simulator reports states with their probabilities and nothing else. -/
theorem outcome_of_sample (simulated : backend.engine = Simulator.engine draw seed maxQubits)
    (sampling : backend.observable = none) (exact : backend.configuration.numberOfMeasurements = 0)
    {circuit : Circuit R} {sample : Sample R} (member : sample ∈ backend.samples circuit) :
    ∃ bits probability, sample = .state bits (some probability) := by
  unfold samples at member
  split at member
  · cases member
  · rename_i program lowered
    split at member
    · cases member
    · rename_i result submitted
      rw [simulated, job, sampling, exact] at submitted
      exact Simulator.outcome_of_distribution (Simulator.run_of_submit submitted) member

theorem states_reported (simulated : backend.engine = Simulator.engine draw seed maxQubits)
    (sampling : backend.observable = none) (exact : backend.configuration.numberOfMeasurements = 0)
    (circuit : Circuit R) :
    ((backend.samples circuit).filterMap Sample.outcome?).map Prod.fst =
      (backend.samples circuit).filterMap Sample.bits? := by
  rw [List.map_filterMap]
  apply List.filterMap_congr
  intro sample member
  obtain ⟨bits, probability, rfl⟩ := outcome_of_sample simulated sampling exact member
  rfl

theorem findSome?_of_map {α β γ : Type} {first : α → Option γ} {second : α → Option β} {change : β → γ}
    {items : List α} (agree : ∀ item ∈ items, first item = (second item).map change) :
    items.findSome? first = (items.findSome? second).map change := by
  induction items with
  | nil => rfl
  | cons item items ih =>
    rw [List.findSome?_cons, List.findSome?_cons, agree item List.mem_cons_self,
      ih fun other member => agree other (List.mem_cons_of_mem _ member)]
    cases second item <;> rfl

/-- The rows that a measurement without shots collects are those of the reported states. -/
theorem rows_merged (simulated : backend.engine = Simulator.engine draw seed maxQubits)
    (sampling : backend.observable = none) (exact : backend.configuration.numberOfMeasurements = 0)
    {circuits : List (Circuit R)}
    (accepted : ∀ circuit ∈ circuits, backend.Accepts circuit) (name : String) :
    (backend.merged circuits).rows name = (backend.reported circuits name).map Prod.fst := by
  have each (circuit : Circuit R) (member : circuit ∈ circuits) :
      (backend.collected circuit).rows? .bit name =
        ((circuit.output? .bit name).map fun definition =>
          ((backend.samples circuit).filterMap Sample.outcome?).map fun outcome =>
            (rowEntries circuit.readouts outcome.1 definition, outcome.2)).map
              (List.map fun row => .bits row.1) := by
    rw [rows_collected backend (accepted circuit member).valid, ← states_reported simulated sampling exact]
    cases circuit.output? .bit name <;> simp
  have merged := backend.rows?_merged circuits .bit name
  rw [findSome?_of_map fun circuit member => each circuit (List.mem_reverse.1 member)] at merged
  have injective : Function.Injective (Option.map (List.map (Row.bits (R := R)))) :=
    Option.map_injective (List.map_injective_iff.2 fun _ _ same => Row.bits.inj same)
  rw [Registers.rows, reported]
  generalize circuits.reverse.findSome? _ = found at merged ⊢
  have bits : (backend.merged circuits).bits.get? name = found.map (List.map Prod.fst) := by
    apply injective
    refine merged.trans ?_
    cases found <;> simp
  rw [bits]
  cases found <;> rfl

end Simulated
end General

open ZProducts

section Exact
variable [Literal ℝ] {Seed : Type} {draw : Seed → ℝ × Seed} {seed : Seed} {maxQubits : Nat}

theorem runMeasurement_succeeds (counts : ∀ number : Int, (Literal.ofInt number : ℝ) = number)
    (backend : Backend ℝ) {measurement : Measurement ℝ} {products : ZProducts ℝ}
    (input : measurement.products = some products) :
    SucceedsWith (backend.runMeasurement measurement)
      ((∀ circuit ∈ measurement.runs, backend.Accepts circuit) ∧
        products.Covered (backend.merged measurement.runs).rows)
      (some (products.combine fun readout =>
        plainMean ((backend.merged measurement.runs).rows readout))) := by
  have evaluated (registers : Registers ℝ) :
      SucceedsWith (measurement.evaluate registers) (products.Covered registers.rows)
        (some (products.combine fun readout => plainMean (registers.rows readout))) := by
    rw [Measurement.evaluate, input]
    exact (evaluate_succeeds counts products registers).map some
  exact (runRegisters_succeeds backend measurement).bind ((evaluated _).mapError BackendError.evaluation)

/-- A measurement without shots evaluates the plain means over the reported states. They are the
expectation values if and only if what the probabilities lack of equal shares cancels out in every
output, as it does where each is its share. -/
theorem runMeasurement_without_shots (counts : ∀ number : Int, (Literal.ofInt number : ℝ) = number)
    (backend : Backend ℝ) (simulated : backend.engine = Simulator.engine draw seed maxQubits)
    (sampling : backend.observable = none) (exact : backend.configuration.numberOfMeasurements = 0)
    (measurement : Measurement ℝ) (products : ZProducts ℝ)
    (input : measurement.products = some products) :
    let outcomes := backend.reported measurement.runs
    let returned := products.combine fun readout => plainMean ((outcomes readout).map Prod.fst)
    let expected := products.combine fun readout => expectation (outcomes readout)
    SucceedsWith (backend.runMeasurement measurement)
        ((∀ circuit ∈ measurement.runs, backend.Accepts circuit) ∧
          products.Covered fun readout => (outcomes readout).map Prod.fst)
        (some returned) ∧
      (returned = expected ↔ ∀ output ∈ products.combinations.entries,
        products.combination (fun readout => skew (outcomes readout)) output.2 = 0) ∧
      ((∀ readout, ∀ outcome ∈ outcomes readout, outcome.2 = 1 / (outcomes readout).length) →
        returned = expected) := by
  intro outcomes returned expected
  have rows (accepted : ∀ circuit ∈ measurement.runs, backend.Accepts circuit) :
      (backend.merged measurement.runs).rows = fun readout => (outcomes readout).map Prod.fst :=
    funext (rows_merged simulated sampling exact accepted)
  have gap : returned = expected ↔ ∀ output ∈ products.combinations.entries,
      products.combination (fun readout => skew (outcomes readout)) output.2 = 0 := by
    rw [combine_eq_iff]
    simp only [plainMean_sub_expectation]
  refine ⟨?_, gap, ?_⟩
  · have succeeds := runMeasurement_succeeds counts backend input
    refine (succeeds.replace ?_).congr ?_
    · rintro ⟨accepted, _⟩
      rw [rows accepted]
    · exact and_congr_right fun accepted => by rw [rows accepted]
  · intro equal
    have even : (fun readout => skew (outcomes readout)) = fun _ _ => 0 := by
      funext readout entries
      exact skew_of_equal_shares (equal readout) entries
    rw [gap, even]
    exact fun output _ => combination_zero products output.2

end Exact

@[reducible]
noncomputable def exactLiteral : Literal ℝ where
  text _ := ""
  read _ := none
  isFinite _ := true
  whole number := min ⌊number⌋₊ (2 ^ 64 - 1)
  ofInt number := number

def withoutShots (R : Type) [Scalar R] (numberOfQubits : Nat) : Backend R where
  configuration := { numberOfQubits, numberOfMeasurements := 0 }
  jobType := .sample
  observable := none
  assignment := none
  engine := Simulator.engine (fun seed : Unit => (0, seed)) ()
  warnings := []

noncomputable def oneSign : ZProducts ℝ := ⟨1, ⟨[("ro", [(0, [0])])]⟩, 1, ⟨[("z", [(0, 1)])]⟩⟩

noncomputable def turnedCircuit : Circuit ℝ :=
  [.define ⟨.bit, "ro", 1, true⟩, .gate .singleQubitGate #v[0] (#v[3 / 5, 0, 4 / 5, 0, 0].map .literal),
    .measure 0 "ro" 0]

theorem distribution_turned :
    Simulator.distribution ⟨1, [.apply ⟨GateKind.singleQubitGate.toGate #v[3 / 5, 0, 4 / 5, 0, 0], [0]⟩]⟩ =
      .ok [.state [false] (some (9 / 25 : ℝ)), .state [true] (some (16 / 25))] := by
  obtain ⟨moved, applied, zero, one⟩ := State.apply_amplitudes (3 / 5) (4 / 5)
  have evolved : Simulator.ensemble
      ⟨1, [.apply ⟨GateKind.singleQubitGate.toGate #v[3 / 5, 0, 4 / 5, 0, 0], [0]⟩]⟩ =
        .ok [⟨1, moved⟩] := by
    simp only [Simulator.ensemble, List.foldlM_cons, Simulator.evolveBranches, List.mapM_cons, applied]
    rfl
  have first : Simulator.probability [⟨1, moved⟩] 0 = 9 / 25 := by
    norm_num [Simulator.probability, accumulate, zero]
  have second : Simulator.probability [⟨1, moved⟩] 1 = 16 / 25 := by
    norm_num [Simulator.probability, accumulate, one]
  have above (probability : ℝ) (high : 1e-12 < probability) : Scalar.less Simulator.cutoff probability = true :=
    decide_eq_true high
  rw [Simulator.distribution_eq evolved]
  change Except.ok (List.filterMap _ [0, 1]) = _
  simp only [List.filterMap_cons, first, second, above (9 / 25) (by norm_num), above (16 / 25) (by norm_num)]
  rfl

/-- Two states of different probabilities. Their signs cancel in the plain mean and not in the expectation value. -/
theorem runMeasurement_turned :
    letI := exactLiteral
    let outcomes := (withoutShots ℝ 1).reported [turnedCircuit]
    outcomes "ro" = [([false], 9 / 25), ([true], 16 / 25)] ∧
      (withoutShots ℝ 1).runMeasurement ⟨none, [turnedCircuit], some oneSign⟩ = .ok (some ⟨[("z", 0)]⟩) ∧
      oneSign.combine (fun readout => expectation (outcomes readout)) = ⟨[("z", -7 / 25)]⟩ := by
  let literal := exactLiteral
  intro outcomes
  let program : Program ℝ := ⟨1, [.apply ⟨GateKind.singleQubitGate.toGate #v[3 / 5, 0, 4 / 5, 0, 0], [0]⟩]⟩
  let states : List (Sample ℝ) := [.state [false] (some (9 / 25)), .state [true] (some (16 / 25))]
  have lowered : (withoutShots ℝ 1).program turnedCircuit = .ok program := by
    have turned := Lowering.operation_literals (R := ℝ) { numberOfQubits := 1 } rfl .singleQubitGate #v[0]
      #v[3 / 5, 0, 4 / 5, 0, 0] (by decide)
    change Except.mapError _ (Lowering.program { numberOfQubits := 1 } turnedCircuit) = _
    simp only [Lowering.program, Lowering.body, turnedCircuit, turned]
    rfl
  have submitted : (withoutShots ℝ 1).engine.submit ((withoutShots ℝ 1).job program) =
      .ok { jobId := "", samples := states } := by
    have simulated : Simulator.run (fun seed : Unit => ((0 : ℝ), seed)) () (.sample program 0) = .ok states :=
      distribution_turned
    simp only [withoutShots, job, Simulator.engine, simulated]
    rfl
  have accepted : (withoutShots ℝ 1).Accepts turnedCircuit := ⟨rfl, rfl, _, lowered, _, submitted⟩
  have listed : (withoutShots ℝ 1).samples turnedCircuit = states := by
    rw [samples, lowered]
    simp only [submitted]
  have reported : outcomes "ro" = [([false], 9 / 25), ([true], 16 / 25)] := by
    change (((withoutShots ℝ 1).samples turnedCircuit).filterMap Sample.outcome?).map _ = _
    rw [listed]
    rfl
  obtain ⟨succeeds, _, _⟩ := runMeasurement_without_shots (fun _ => rfl) (withoutShots ℝ 1) rfl rfl rfl
    ⟨none, [turnedCircuit], some oneSign⟩ oneSign rfl
  refine ⟨reported, (succeeds _).2 ⟨⟨?_, ?_⟩, ?_⟩, ?_⟩
  · intro circuit member
    rwa [List.mem_singleton.1 member]
  · intro register member
    rw [List.mem_singleton.1 member]
    change (outcomes "ro").map Prod.fst ≠ [] ∧
      ∀ product ∈ [(0, [0])], ∀ row ∈ (outcomes "ro").map Prod.fst, _
    rw [reported]
    simp
  · have mean : plainMean ((outcomes "ro").map Prod.fst) [0] = 0 := by
      rw [reported]
      simp [plainMean, sign, odd]
    simpa [combine, combination, registered?, oneSign, Measurement.runs] using mean
  · have value : expectation (outcomes "ro") [0] = -7 / 25 := by
      rw [reported]
      norm_num [expectation, sign, odd]
    simpa [combine, combination, registered?, oneSign] using value

/-- One state has half of the probability and four have an eighth each. The two outcomes of the
measured qubit balance, but four of the five reported states have it set. -/
theorem runMeasurement_skewed :
    let circuit : Circuit Float := [.define ⟨.bit, "ro", 1, true⟩, .gate .hadamard #v[0] #v[],
      .gate .hadamard #v[1] #v[], .gate .toffoli #v[0, 1, 2] #v[], .gate .hadamard #v[0] #v[],
      .measure 1 "ro" 0]
    let products : ZProducts Float := ⟨3, ⟨[("ro", [(0, [0])])]⟩, 1, ⟨[("z", [(0, 1)])]⟩⟩
    let expected := accumulate (((withoutShots Float 3).reported [circuit] "ro").map fun outcome =>
      if odd outcome.1 [0] then -outcome.2 else outcome.2)
    expected < 0.001 ∧ -0.001 < expected ∧
      (((withoutShots Float 3).runMeasurement ⟨none, [circuit], some products⟩).toOption.join.bind
        (·.get? "z")).any (· == -0.6) = true := by
  decide +kernel

end Backend
end CircuitRunner
