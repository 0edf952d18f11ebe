import Mathlib
import CircuitRunner.Proofs.DoubleText
import CircuitRunner.Proofs.Unrolling

/-! Loop counts as numbers. A finite double stands for a multiple of a power of two, and a loop runs as often as the
whole part of that number says. So the unrolled form of a circuit follows from the numbers that its loop counts
stand for. -/
namespace CircuitRunner

namespace Double
open Float.Model Float.Model.UnpackedFloat

section Bits
variable (x : Float)

theorem toNat_unpackMantissa :
    (@unpackMantissa Format.binary64 x.toModel.toBits.toBitVec).toNat = fraction x := by
  simp [unpackMantissa]
  rfl

theorem toNat_unpackExponent :
    (@unpackExponent Format.binary64 x.toModel.toBits.toBitVec).toNat = biased x := by
  simp [unpackExponent, Nat.shiftRight_eq_div_pow]
  rfl

theorem toNat_unpackSign :
    (@unpackSign Format.binary64 x.toModel.toBits.toBitVec).toNat = x.toBits.toNat / 2 ^ 63 := by
  have := x.toBits.toNat_lt
  have top : x.toBits.toNat / 2 ^ 63 < 2 := by omega
  rw [← Nat.mod_eq_of_lt top]
  simp [unpackSign, Nat.shiftRight_eq_div_pow]
  rfl

def sign : Sign := if isNegative x then .negative else .positive

theorem unpackSign_eq : Sign.ofBitVec (@unpackSign Format.binary64 x.toModel.toBits.toBitVec) = sign x := by
  have zero : @unpackSign Format.binary64 x.toModel.toBits.toBitVec = 0#1 ↔ ¬isNegative x := by
    have := x.toBits.toNat_lt
    rw [← BitVec.toNat_inj, toNat_unpackSign]
    simp [isNegative]
    omega
  rw [Sign.ofBitVec, sign]
  by_cases negative : isNegative x <;> simp [zero, negative]

end Bits

theorem finite_congr {sign : Sign} {mantissa mantissa' : Nat} {exponent exponent' : Int}
    (sameMantissa : mantissa = mantissa') (sameExponent : exponent = exponent') (positive : 0 < mantissa) :
    ∃ positive', UnpackedFloat.finite sign mantissa exponent positive =
      .finite sign mantissa' exponent' positive' := by
  subst sameMantissa sameExponent
  exact ⟨positive, rfl⟩

theorem unpack_of_isFinite {x : Float} (finite : x.isFinite = true) :
    (decompose x).1 = 0 ∧ x.toModel.unpack = .zero (sign x) ∨
      ∃ positive, x.toModel.unpack = .finite (sign x) (decompose x).1 (decompose x).2.1 positive := by
  have mantissa := toNat_unpackMantissa x
  have exponent := toNat_unpackExponent x
  change x.toModel.unpack.isFinite = true at finite
  rw [Float.Model.unpack, UnpackedFloat.unpack] at finite ⊢
  simp only [unpackSign_eq] at finite ⊢
  split at finite
  · split at finite <;> cases finite
  rename_i regular
  rw [if_neg regular]
  split
  case isTrue subnormal =>
    have least : biased x = 0 := by
      rw [← exponent, subnormal]
      rfl
    rw [decompose_eq, if_pos least]
    split
    case isTrue zero =>
      refine .inl ⟨?_, rfl⟩
      rw [← mantissa, zero]
      rfl
    case isFalse nonzero =>
      refine .inr (finite_congr mantissa ?_ _)
      rw [exponent, least]
      rfl
  case isFalse normal =>
    have above : biased x ≠ 0 := by
      rw [← exponent]
      intro zero
      exact normal (BitVec.eq_of_toNat_eq zero)
    rw [decompose_eq, if_neg above]
    refine .inr (finite_congr ?_ ?_ _)
    · have below := fraction_lt x
      rw [BitVec.toNat_append, mantissa, ← Nat.shiftLeft_add_eq_or_of_lt below, Nat.add_comm]
      rfl
    · rw [exponent]
      rfl

section Truncation

theorem mantissa_shiftRight (start : ExtendedMantissa) (count : Nat) :
    (start >>> count).mantissa = start.mantissa / 2 ^ count := by
  change (count.repeat ExtendedMantissa.shiftRightOne start).mantissa = _
  induction count with
  | zero => exact (Nat.div_one _).symm
  | succ count ih =>
    change (count.repeat ExtendedMantissa.shiftRightOne start).mantissa / 2 = _
    rw [ih, Nat.div_div_eq_div_mul, ← Nat.pow_succ]

theorem roundToInt_eq (sign : Sign) (mantissa : Nat) (exponent : Int) :
    roundToInt sign mantissa exponent = sign.apply ⌊(mantissa : ℚ) * 2 ^ exponent⌋₊ := by
  have shifted : (0 - (exponent - (exponent.toNat : Int))).toNat = (-exponent).toNat := by omega
  have whole : (mantissa : ℚ) * 2 ^ exponent =
      (mantissa * 2 ^ exponent.toNat : Nat) / (2 ^ (-exponent).toNat : Nat) := by
    rw [Decimal.zpow_eq_toNat two_ne_zero]
    push_cast
    ring
  rw [whole, Nat.floor_div_eq_div]
  simp only [roundToInt, decreaseExponent, shiftToExponent, mantissa_shiftRight, Int.sub_zero, shifted,
    Nat.shiftLeft_eq]
  rfl

theorem toNat_ofNatClamp (n : Nat) : (UInt64.ofNatClamp n).toNat = min n (2 ^ 64 - 1) := by
  by_cases inside : n < UInt64.size
  · rw [UInt64.toNat_ofNatClamp_of_lt inside]
    exact (Nat.min_eq_left (Nat.le_pred_of_lt inside)).symm
  · rw [UInt64.toNat_ofNatClamp_of_le (Nat.le_of_not_lt inside)]
    exact (Nat.min_eq_right ((Nat.pred_le _).trans (Nat.le_of_not_lt inside))).symm

end Truncation

def value (x : Float) : ℚ := (if isNegative x then -1 else 1) * (decompose x).1 * 2 ^ (decompose x).2.1

/-- The whole part of the number, as far as a machine word goes, and zero unless it is finite and positive. -/
def loopCount (x : Float) : Nat := if x.isFinite = true ∧ 0 < value x then min ⌊value x⌋₊ (2 ^ 64 - 1) else 0

theorem less_zero_eq (x : Float) : Scalar.less 0 x = (UnpackedFloat.zero .positive).lt x.toModel.unpack := by
  have zero : (Float.toModel 0).unpack = .zero .positive := rfl
  change decide (decide ((Float.toModel 0).unpack.lt x.toModel.unpack = true) = true) = _
  rw [zero, Bool.decide_eq_true, Bool.decide_eq_true]

theorem less_zero_iff {x : Float} (finite : x.isFinite = true) : Scalar.less 0 x = true ↔ 0 < value x := by
  rw [less_zero_eq]
  rcases unpack_of_isFinite finite with ⟨nothing, unpacked⟩ | ⟨positive, unpacked⟩
  · rw [unpacked, value, nothing]
    simp [UnpackedFloat.lt, UnpackedFloat.compare]
  · have power : (0 : ℚ) < 2 ^ (decompose x).2.1 := zpow_pos two_pos _
    have size : (0 : ℚ) < (decompose x).1 := Nat.cast_pos.2 positive
    rw [unpacked, value, sign, mul_pos_iff_of_pos_right power, mul_pos_iff_of_pos_right size]
    cases isNegative x <;> simp [UnpackedFloat.lt, UnpackedFloat.compare]

theorem isNegative_of_value_pos {x : Float} (positive : 0 < value x) : isNegative x = false := by
  cases negative : isNegative x with
  | false => rfl
  | true =>
    have size : (0 : ℚ) ≤ (decompose x).1 * 2 ^ (decompose x).2.1 := by positivity
    rw [value, negative, if_pos rfl] at positive
    linarith

theorem whole_eq {x : Float} (finite : x.isFinite = true) (positive : 0 < value x) :
    Literal.whole x = min ⌊value x⌋₊ (2 ^ 64 - 1) := by
  have unsigned := isNegative_of_value_pos positive
  change (UInt64.ofNatClamp (x.toModel.unpack.toInt 0 (UInt64.size - 1)).toNat).toNat = _
  rw [toNat_ofNatClamp]
  refine congrArg (min · _) ?_
  rcases unpack_of_isFinite finite with ⟨nothing, unpacked⟩ | ⟨nonzero, unpacked⟩
  · rw [unpacked, value, nothing]
    simp [UnpackedFloat.toInt]
  · rw [unpacked, sign, unsigned]
    change (roundToInt .positive _ _).toNat = _
    rw [roundToInt_eq, value, unsigned]
    simp [Sign.apply]

/-- Loops run as often as the numbers of their counts say. -/
theorem repetitionCount_eq (x : Float) : repetitionCount x = loopCount x := by
  have tested : (Literal.isFinite x && Scalar.less 0 x) = true ↔ x.isFinite = true ∧ 0 < value x := by
    rw [Bool.and_eq_true]
    exact and_congr_right less_zero_iff
  rw [repetitionCount, loopCount]
  by_cases runs : x.isFinite = true ∧ 0 < value x
  · rw [if_pos runs, if_pos (tested.2 runs), whole_eq runs.1 runs.2]
  · rw [if_neg runs, if_neg (mt tested.1 runs)]

end Double

namespace Lowering

/-- Lowering a circuit and lowering its unrolled form, with loops written out as often as the numbers of their
counts say, give the same program or the same error. An unrolling that stops at a loop count adds the error of
that count behind every error of the operations before it. Bodies that never run make no difference, whatever
they hold. -/
theorem program_unroll (lowering : Lowering Float) (circuit : Circuit Float) :
    let unrolled := circuit.unrollBy Double.loopCount lowering.resolver
    unrolled.operations.LoopFree ∧
      lowering.program circuit = (lowering.program unrolled.operations).bind
        (fun program => unrolled.stopped.elim (.ok program) .error) ∧
      lowering.program circuit = lowering.program (circuit.withoutIdle Double.loopCount lowering.resolver) := by
  have counts : Double.loopCount = repetitionCount := funext fun x => (Double.repetitionCount_eq x).symm
  rw [counts]
  exact ⟨circuit.loopFree_unrollBy repetitionCount lowering.resolver, lowering.program_unrolled circuit,
    (lowering.program_withoutIdle circuit).symm⟩

/-- Two and seven tenths run twice. Negative and infinite counts do not run, so their bodies may leave the
register. -/
theorem program_unroll_truncated :
    let flip : Operation Float := .gate .pauliX #v[0] #v[]
    let outside : Operation Float := .gate .pauliX #v[7] #v[]
    let circuit : Circuit Float := [.loop (.literal 2.7) [flip, .loop (.literal (-3)) [outside]],
      .loop (.literal (1.0 / 0.0)) [outside]]
    let lowering : Lowering Float := { numberOfQubits := 1 }
    circuit.unrollBy Double.loopCount none = ⟨[flip, flip], none⟩ ∧ Double.loopCount 1e20 = 2 ^ 64 - 1 ∧
      lowering.program circuit = lowering.program [flip, flip] ∧
      lowering.program [flip, flip] = .ok ⟨1, [.apply ⟨.x, [0]⟩, .apply ⟨.x, [0]⟩]⟩ := by
  intro flip outside circuit lowering
  have twice : Double.loopCount 2.7 = 2 := by decide +kernel
  have negative : Double.loopCount (-3) = 0 := by decide +kernel
  have endless : Double.loopCount (1.0 / 0.0) = 0 := by decide +kernel
  have unrolled : circuit.unrollBy Double.loopCount none = ⟨[flip, flip], none⟩ := by
    simp only [circuit, Circuit.unrollBy, Operation.unrollBody, Operation.unroll, Parameter.resolve, twice,
      negative, endless]
    rfl
  refine ⟨unrolled, by decide +kernel, ?_, rfl⟩
  obtain ⟨_, same, _⟩ := program_unroll lowering circuit
  rw [unrolled] at same
  exact same

end Lowering
end CircuitRunner
