import Mathlib
import CircuitRunner.Double
import CircuitRunner.Proofs.FormulaParser
import CircuitRunner.Proofs.ShortestDecimal

/-! The written form of finite doubles: digits and a point after an optional minus sign, and no two doubles have the
same one. Each double is written by a decimal nearer to it than to its neighbours, so the decimal tells which it is. -/
namespace CircuitRunner.Double
open Decimal

/-- Mantissa and exponent as `decompose` gives them: the mantissa has its leading bit unless the exponent is the
least one. -/
structure Normalized (mantissa : Nat) (exponent : Int) (atPower : Bool) : Prop where
  mantissa_lt : mantissa < 2 ^ 53
  least_le : -1074 ≤ exponent
  leading : -1074 < exponent → 2 ^ 52 ≤ mantissa
  atPower_iff : atPower = true ↔ mantissa = 2 ^ 52 ∧ -1074 < exponent

def fraction (x : Float) : Nat := x.toBits.toNat % 2 ^ 52

def biased (x : Float) : Nat := x.toBits.toNat / 2 ^ 52 % 2 ^ 11

theorem decompose_eq (x : Float) :
    decompose x = if biased x = 0 then (fraction x, -1074, false)
      else (fraction x + 2 ^ 52, (biased x : Int) - 1075, fraction x == 0 && biased x > 1) := rfl

theorem fraction_lt (x : Float) : fraction x < 2 ^ 52 := Nat.mod_lt _ (by norm_num)

theorem normalized_decompose (x : Float) : Normalized (decompose x).1 (decompose x).2.1 (decompose x).2.2 := by
  have bounded := fraction_lt x
  rw [decompose_eq]
  split
  case isTrue subnormal => exact ⟨by omega, by simp, by simp, by simp⟩
  case isFalse normal => exact ⟨by omega, by simp; omega, by simp, by simp; omega⟩

theorem eq_of_toBits {x y : Float} (same : x.toBits = y.toBits) : x = y := by
  obtain ⟨⟨bits, valid⟩⟩ := x
  obtain ⟨⟨bits', valid'⟩⟩ := y
  cases (same : bits = bits')
  rfl

theorem eq_of_decompose {x y : Float} (sign : isNegative x = isNegative y)
    (mantissa : (decompose x).1 = (decompose y).1) (exponent : (decompose x).2.1 = (decompose y).2.1) : x = y := by
  have bounded := fraction_lt x
  have bounded' := fraction_lt y
  have fields : fraction x = fraction y ∧ biased x = biased y := by
    by_cases subnormal : biased x = 0 <;> by_cases subnormal' : biased y = 0 <;>
      simp only [decompose_eq, subnormal, subnormal', if_true, if_false] at mantissa exponent <;> omega
  refine eq_of_toBits (UInt64.toNat_inj.1 ?_)
  have := x.toBits.toNat_lt
  have := y.toBits.toNat_lt
  have top : x.toBits.toNat / 2 ^ 63 = 1 ↔ y.toBits.toNat / 2 ^ 63 = 1 := by
    simpa only [isNegative, Nat.pow_eq, beq_iff_eq] using Bool.eq_iff_iff.1 sign
  simp only [fraction, biased] at fields
  omega

/-- The lower bound of the numbers that round to a double, in quarters of the last bit of its mantissa. -/
def start (mantissa : Nat) (atPower : Bool) : Nat := 4 * mantissa - if atPower then 1 else 2

section Rounding
variable {mantissa mantissa' : Nat} {exponent exponent' : Int} {atPower atPower' : Bool} {x : ℚ}

theorem pow_toNat_le (count : Nat) (shift : Int) : ((count * Nat.pow 2 shift.toNat : Nat) : ℚ) ≤
    x * (Nat.pow 2 (-shift).toNat : Nat) ↔ count * (2 : ℚ) ^ shift ≤ x := by
  have positive : (0 : ℚ) < 2 ^ (-shift).toNat := by positivity
  rw [zpow_eq_toNat (by norm_num), ← mul_div_assoc, div_le_iff₀ positive]
  push_cast [Nat.pow_eq]
  rfl

theorem le_pow_toNat (count : Nat) (shift : Int) : x * (Nat.pow 2 (-shift).toNat : Nat) ≤
    ((count * Nat.pow 2 shift.toNat : Nat) : ℚ) ↔ x ≤ count * (2 : ℚ) ^ shift := by
  have positive : (0 : ℚ) < 2 ^ (-shift).toNat := by positivity
  rw [zpow_eq_toNat (by norm_num), ← mul_div_assoc, le_div_iff₀ positive]
  push_cast [Nat.pow_eq]
  rfl

/-- The interval of a double, in quarters of its last bit. An odd mantissa leaves out the ends. -/
theorem contains_ofBinary : (Interval.ofBinary mantissa exponent atPower).Contains x ↔
    if mantissa % 2 = 0 then
      start mantissa atPower * (2 : ℚ) ^ (exponent - 2) ≤ x ∧
        x ≤ (4 * mantissa + 2 : Nat) * (2 : ℚ) ^ (exponent - 2)
    else
      start mantissa atPower * (2 : ℚ) ^ (exponent - 2) < x ∧
        x < (4 * mantissa + 2 : Nat) * (2 : ℚ) ^ (exponent - 2) := by
  unfold Interval.Contains
  refine iff_of_eq (if_congr beq_iff_eq (congrArg₂ And (propext ?_) (propext ?_))
    (congrArg₂ And (propext ?_) (propext ?_)))
  · exact pow_toNat_le _ _
  · exact le_pow_toNat _ _
  · rw [← not_le, ← not_le]
    exact not_congr (le_pow_toNat _ _)
  · rw [← not_le, ← not_le]
    exact not_congr (pow_toNat_le _ _)

theorem positive_of_contains (positive : 0 < mantissa)
    (within : (Interval.ofBinary mantissa exponent atPower).Contains x) : 0 < x := by
  have begins : (0 : ℚ) < start mantissa atPower * (2 : ℚ) ^ (exponent - 2) := by
    have : 0 < start mantissa atPower := by
      unfold start
      split <;> omega
    positivity
  rw [contains_ofBinary] at within
  split at within <;> linarith

namespace Normalized

/-- The interval of a double holds a decimal of seventeen digits, since `2^53 < 10^16`. -/
theorem shortest_contains (normalized : Normalized mantissa exponent atPower) (positive : 0 < mantissa) :
    (Interval.ofBinary mantissa exponent atPower).Contains
      (scaled (Interval.ofBinary mantissa exponent atPower).shortest.1
        (Interval.ofBinary mantissa exponent atPower).shortest.2) := by
  have factor : 0 < Nat.pow 2 (exponent - 2).toNat := Nat.pow_pos (by norm_num)
  have bounded := normalized.mantissa_lt
  have power := normalized.atPower_iff
  apply Interval.shortest_contains
  · exact Nat.pow_pos (by norm_num)
  · exact Nat.mul_lt_mul_of_pos_right (by split <;> omega) factor
  · exact Nat.mul_lt_mul_of_pos_right (by omega) factor
  · have quarters : 4 * mantissa + 10 ^ 16 * start mantissa atPower < 10 ^ 16 * (4 * mantissa + 2) := by
      unfold start
      split
      all_goals grind
    change 4 * mantissa * _ + 10 ^ 16 * (start mantissa atPower * _) < 10 ^ 16 * ((4 * mantissa + 2) * _)
    nlinarith [Nat.mul_lt_mul_of_pos_right quarters factor]

/-- Of two doubles, the interval of the smaller one ends where that of the other begins or before it; where they meet,
one of the mantissas is odd. -/
theorem end_le_start (first : Normalized mantissa exponent atPower) (second : Normalized mantissa' exponent' atPower')
    (before : exponent < exponent' ∨ exponent = exponent' ∧ mantissa < mantissa') :
    4 * mantissa + 2 < 2 ^ (exponent' - exponent).toNat * start mantissa' atPower' ∨
      4 * mantissa + 2 = 2 ^ (exponent' - exponent).toNat * start mantissa' atPower' ∧
        (mantissa % 2 = 1 ∨ mantissa' % 2 = 1) := by
  have bounded := first.mantissa_lt
  have power := second.atPower_iff
  rcases before with lower | ⟨rfl, less⟩
  · have least := first.least_le
    have leading := second.leading (by omega)
    have begins : 2 ^ 54 - 1 ≤ start mantissa' atPower' := by
      unfold start
      split
      all_goals grind
    have doubled : 2 ≤ 2 ^ (exponent' - exponent).toNat := Nat.le_self_pow (by omega) 2
    -- The largest mantissa, which is odd, is the only one whose interval reaches up to the next power of two.
    have := Nat.mul_le_mul doubled begins
    omega
  · have leading := first.leading
    -- At one exponent nothing lies below the power of two, so the greater mantissa is not at one.
    have begins : start mantissa' atPower' = 4 * mantissa' - 2 := by
      unfold start
      split
      all_goals grind
    rw [begins, sub_self]
    simp only [Int.toNat_zero, pow_zero, one_mul]
    omega

theorem disjoint (first : Normalized mantissa exponent atPower) (second : Normalized mantissa' exponent' atPower')
    (before : exponent < exponent' ∨ exponent = exponent' ∧ mantissa < mantissa')
    (within : (Interval.ofBinary mantissa exponent atPower).Contains x) :
    ¬ (Interval.ofBinary mantissa' exponent' atPower').Contains x := by
  intro within'
  have positive : (0 : ℚ) < 2 ^ (exponent - 2) := by positivity
  have rescaled : start mantissa' atPower' * (2 : ℚ) ^ (exponent' - 2) =
      (2 ^ (exponent' - exponent).toNat * start mantissa' atPower' : Nat) * (2 : ℚ) ^ (exponent - 2) := by
    have sum : exponent' - 2 = (exponent' - exponent).toNat + (exponent - 2) := by omega
    rw [sum, zpow_add₀ (by norm_num), zpow_natCast]
    push_cast
    ring
  rw [contains_ofBinary] at within within'
  rw [rescaled] at within'
  rcases first.end_le_start second before with less | ⟨same, odd⟩
  · have := mul_lt_mul_of_pos_right (Nat.cast_lt.2 less : ((_ : Nat) : ℚ) < (_ : Nat)) positive
    split at within <;> split at within' <;> linarith
  · rw [← same] at within'
    split at within <;> split at within'
    case isTrue.isTrue even even' => omega
    all_goals linarith

/-- A number lies in the interval of one double at most. -/
theorem unique (first : Normalized mantissa exponent atPower) (second : Normalized mantissa' exponent' atPower')
    (within : (Interval.ofBinary mantissa exponent atPower).Contains x)
    (within' : (Interval.ofBinary mantissa' exponent' atPower').Contains x) :
    mantissa = mantissa' ∧ exponent = exponent' := by
  by_contra different
  have apart : (exponent < exponent' ∨ exponent = exponent' ∧ mantissa < mantissa') ∨
      (exponent' < exponent ∨ exponent' = exponent ∧ mantissa' < mantissa) := by omega
  rcases apart with before | after
  · exact first.disjoint second before within within'
  · exact second.disjoint first after within' within

end Normalized

end Rounding

def decimal (x : Float) : Nat × Int :=
  if (decompose x).1 = 0 then (0, 0)
  else (Interval.ofBinary (decompose x).1 (decompose x).2.1 (decompose x).2.2).shortest

theorem text_of_isFinite {x : Float} (finite : x.isFinite = true) : (text x).toList =
    (if isNegative x then ['-'] else []) ++ (positional (decimal x).1 (decimal x).2).toList := by
  have number : x.isNaN = false ∧ x.isInf = false := by
    change x.toModel.unpack.isFinite = true at finite
    change x.toModel.unpack.isNaN = false ∧ x.toModel.unpack.isInf = false
    cases unpacked : x.toModel.unpack
    case notANumber => simp [unpacked, Float.Model.UnpackedFloat.isFinite] at finite
    case infinity => simp [unpacked, Float.Model.UnpackedFloat.isFinite] at finite
    all_goals exact ⟨rfl, rfl⟩
  have sign : (if isNegative x then "-" else "").toList = if isNegative x then ['-'] else [] := by
    split <;> rfl
  unfold text
  simp only [number.1, number.2, Bool.false_eq_true, if_false]
  rw [← sign, ← String.toList_append, decimal]
  split
  · rfl
  · rfl

theorem scaled_decimal_zero {x : Float} (zero : (decompose x).1 = 0) : scaled (decimal x).1 (decimal x).2 = 0 := by
  rw [decimal, if_pos zero]
  simp [scaled]

theorem contains_decimal {x : Float} (nonzero : (decompose x).1 ≠ 0) :
    (Interval.ofBinary (decompose x).1 (decompose x).2.1 (decompose x).2.2).Contains
      (scaled (decimal x).1 (decimal x).2) := by
  rw [decimal, if_neg nonzero]
  exact (normalized_decompose x).shortest_contains (Nat.pos_of_ne_zero nonzero)

theorem decompose_eq_of_decimal {x y : Float}
    (same : scaled (decimal x).1 (decimal x).2 = scaled (decimal y).1 (decimal y).2) :
    (decompose x).1 = (decompose y).1 ∧ (decompose x).2.1 = (decompose y).2.1 := by
  have first := normalized_decompose x
  have second := normalized_decompose y
  -- Zero has the only decimal that is not positive; any other double is alone in its interval.
  by_cases zero : (decompose x).1 = 0 <;> by_cases zero' : (decompose y).1 = 0
  · have least := first.least_le
    have least' := second.least_le
    have leading := first.leading
    have leading' := second.leading
    omega
  · have positive := positive_of_contains (Nat.pos_of_ne_zero zero') (contains_decimal zero')
    rw [← same, scaled_decimal_zero zero] at positive
    exact absurd positive (lt_irrefl 0)
  · have positive := positive_of_contains (Nat.pos_of_ne_zero zero) (contains_decimal zero)
    rw [same, scaled_decimal_zero zero'] at positive
    exact absurd positive (lt_irrefl 0)
  · exact first.unique second (contains_decimal zero) (same ▸ contains_decimal zero')

theorem isNumeral_positional (digits : Nat) (place : Int) :
    Formula.isNumeral (positional digits place).toList = true := by
  simp only [Formula.isNumeral, Bool.and_eq_true, Bool.not_eq_true', List.isEmpty_eq_false_iff, List.all_eq_true,
    Bool.or_eq_true, beq_iff_eq]
  exact ⟨positional_ne_nil digits place, fun c => mem_positional⟩

theorem minus_not_mem_positional (digits : Nat) (place : Int) : '-' ∉ (positional digits place).toList := by
  intro member
  rcases mem_positional member with digit | point
  · cases digit
  · cases point

theorem text_injective {x y : Float} (finite : x.isFinite = true) (finite' : y.isFinite = true)
    (same : text x = text y) : x = y := by
  have chars := congrArg String.toList same
  rw [text_of_isFinite finite, text_of_isFinite finite'] at chars
  have parts : isNegative x = isNegative y ∧
      (positional (decimal x).1 (decimal x).2).toList = (positional (decimal y).1 (decimal y).2).toList := by
    have unsigned := minus_not_mem_positional (decimal x).1 (decimal x).2
    have unsigned' := minus_not_mem_positional (decimal y).1 (decimal y).2
    cases negative : isNegative x <;> cases negative' : isNegative y <;>
      simp only [negative, negative', Bool.false_eq_true, if_true, if_false, List.nil_append,
        List.singleton_append] at chars
    · exact ⟨rfl, chars⟩
    · exact absurd (chars ▸ List.mem_cons_self) unsigned
    · exact absurd (chars.symm ▸ List.mem_cons_self) unsigned'
    · exact ⟨rfl, (List.cons.inj chars).2⟩
  obtain ⟨number, read, value⟩ := parseUnsigned_positional (decimal x).1 (decimal x).2
  obtain ⟨number', read', value'⟩ := parseUnsigned_positional (decimal y).1 (decimal y).2
  rw [parts.2] at read
  cases read.symm.trans read'
  obtain ⟨mantissa, exponent⟩ := decompose_eq_of_decimal (value.symm.trans value')
  exact eq_of_decompose parts.1 mantissa exponent

end CircuitRunner.Double
