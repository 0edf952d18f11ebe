import Mathlib
import CircuitRunner.Decimal.Numeral
import CircuitRunner.Decimal.Shortest

/-! Decimals inside an interval. The decimal that is searched for lies in the interval, one of seventeen digits is found
when the interval is wide enough, and the text of a decimal reads back to its value. -/
namespace CircuitRunner.Decimal

def scaled (mantissa : Nat) (exponent : Int) : ℚ := mantissa * (10 : ℚ) ^ exponent

theorem scaled_mul_pow (mantissa count : Nat) (exponent : Int) :
    scaled (mantissa * 10 ^ count) exponent = scaled mantissa (exponent + count) := by
  rw [scaled, scaled, add_comm, zpow_add₀ (by norm_num), zpow_natCast]
  push_cast
  ring

theorem zpow_eq_toNat {base : ℚ} (nonzero : base ≠ 0) (exponent : Int) :
    base ^ exponent = base ^ exponent.toNat / base ^ (-exponent).toNat := by
  rw [← zpow_natCast, ← zpow_natCast, ← zpow_sub₀ nonzero]
  congr 1
  omega

namespace Interval
variable {interval : Interval}

def Contains (interval : Interval) (x : ℚ) : Prop :=
  if interval.closed then
    interval.lower ≤ x * interval.denominator ∧ x * interval.denominator ≤ interval.upper
  else interval.lower < x * interval.denominator ∧ x * interval.denominator < interval.upper

theorem contains_of_between {x : ℚ} (above : interval.lower < x * interval.denominator)
    (below : x * interval.denominator < interval.upper) : interval.Contains x := by
  unfold Contains
  split
  · exact ⟨above.le, below.le⟩
  · exact ⟨above, below⟩

/-- The comparison of `nearest`, in whole numbers. -/
def fits (interval : Interval) (place : Int) (multiple : Nat) : Bool :=
  let up := Nat.pow 10 (-place).toNat
  let unit := interval.denominator * Nat.pow 10 place.toNat
  if interval.closed then interval.lower * up ≤ multiple * unit && multiple * unit ≤ interval.upper * up
  else interval.lower * up < multiple * unit && multiple * unit < interval.upper * up

theorem scaled_mul (multiple denominator : Nat) (place : Int) :
    scaled multiple place * denominator =
      (multiple * (denominator * Nat.pow 10 place.toNat) : Nat) / (Nat.pow 10 (-place).toNat : Nat) := by
  rw [scaled, zpow_eq_toNat (by norm_num)]
  push_cast [Nat.pow_eq]
  ring

theorem fits_iff {place : Int} {multiple : Nat} :
    interval.fits place multiple = true ↔ interval.Contains (scaled multiple place) := by
  have positive : (0 : ℚ) < (Nat.pow 10 (-place).toNat : Nat) := by
    exact_mod_cast Nat.pow_pos (by norm_num : 0 < 10)
  rw [Contains, scaled_mul, le_div_iff₀ positive, div_le_iff₀ positive, lt_div_iff₀ positive,
    div_lt_iff₀ positive, fits]
  norm_cast
  split <;> simp only [Bool.and_eq_true, decide_eq_true_eq]

def below (interval : Interval) (place : Int) : Nat :=
  interval.value * Nat.pow 10 (-place).toNat / (interval.denominator * Nat.pow 10 place.toNat)

theorem scaled_below_le (place : Int) :
    scaled (interval.below place) place * interval.denominator ≤ interval.value := by
  have positive : (0 : ℚ) < (Nat.pow 10 (-place).toNat : Nat) := by
    exact_mod_cast Nat.pow_pos (by norm_num : 0 < 10)
  rw [scaled_mul, div_le_iff₀ positive]
  exact_mod_cast Nat.div_mul_le_self _ _

theorem value_lt_scaled_below (positive : 0 < interval.denominator) (place : Int) :
    interval.value < scaled (interval.below place + 1) place * interval.denominator := by
  have power (n : Nat) : 0 < Nat.pow 10 n := Nat.pow_pos (by norm_num)
  have up : (0 : ℚ) < (Nat.pow 10 (-place).toNat : Nat) := by exact_mod_cast power _
  rw [scaled_mul, lt_div_iff₀ up]
  exact_mod_cast Nat.lt_mul_of_div_lt (Nat.lt_succ_self _) (Nat.mul_pos positive (power _))

/-- The grid points next to the value are tried, and one that lies in the interval is taken. -/
theorem nearest_cases (interval : Interval) (place : Int) :
    (∃ digits, interval.nearest place = some digits ∧ interval.fits place digits = true) ∨
      interval.nearest place = none ∧ interval.fits place (interval.below place) = false ∧
        interval.fits place (interval.below place + 1) = false := by
  generalize result : interval.nearest place = chosen
  unfold nearest at result
  dsimp only at result
  split at result
  case h_1 fitsBelow fitsAbove =>
    refine .inl ⟨_, result.symm, ?_⟩
    split
    · exact fitsBelow
    · exact fitsAbove
  case h_2 fitsBelow _ => exact .inl ⟨_, result.symm, fitsBelow⟩
  case h_3 _ fitsAbove => exact .inl ⟨_, result.symm, fitsAbove⟩
  case h_4 missed missed' => exact .inr ⟨result.symm, missed, missed'⟩

theorem nearest_contains {place : Int} {digits : Nat} (found : interval.nearest place = some digits) :
    interval.Contains (scaled digits place) := by
  rw [← fits_iff]
  obtain ⟨digits', found', fitsFound⟩ | ⟨missing, -⟩ := interval.nearest_cases place
  · cases found.symm.trans found'
    exact fitsFound
  · cases found.symm.trans missing

theorem exists_nearest (positive : 0 < interval.denominator) (inside : interval.lower < interval.value)
    (inside' : interval.value < interval.upper) {place : Int}
    (fine : (10 : ℚ) ^ place * interval.denominator < interval.upper - interval.lower) :
    ∃ digits, interval.nearest place = some digits := by
  have next : scaled (interval.below place + 1) place * interval.denominator =
      scaled (interval.below place) place * interval.denominator + (10 : ℚ) ^ place * interval.denominator := by
    simp only [scaled]
    push_cast
    ring
  have low := interval.scaled_below_le place
  have high := interval.value_lt_scaled_below positive place
  have inner : (interval.lower : ℚ) < interval.value := by exact_mod_cast inside
  have inner' : (interval.value : ℚ) < interval.upper := by exact_mod_cast inside'
  -- If the point below the value misses the interval, one step up still ends before its upper bound.
  have either : interval.fits place (interval.below place) = true ∨
      interval.fits place (interval.below place + 1) = true := by
    rcases lt_or_ge (interval.lower : ℚ) (scaled (interval.below place) place * interval.denominator) with
      above | under
    · exact .inl (fits_iff.2 (contains_of_between above (by linarith)))
    · exact .inr (fits_iff.2 (contains_of_between (by linarith) (by linarith)))
  obtain ⟨digits, found, -⟩ | ⟨-, missed, missed'⟩ := interval.nearest_cases place
  · exact ⟨digits, found⟩
  · simp [missed, missed'] at either

theorem lt_pow_digitCount (n : Nat) : n < 10 ^ digitCount n :=
  (Nat.length_toDigits_le_iff (by norm_num) Nat.length_toDigits_pos).1 (le_refl _)

theorem pow_digitCount_le {n : Nat} (positive : 0 < n) : 10 ^ (digitCount n - 1) ≤ n := by
  rcases Nat.eq_zero_or_pos (digitCount n - 1) with single | several
  · rw [single]
    exact positive
  · by_contra above
    have fewer := (Nat.length_toDigits_le_iff (by norm_num) several).2 (not_le.1 above)
    simp only [digitCount] at fewer several
    omega

/-- The leading digit of the value stands below its magnitude. -/
theorem zpow_magnitude_le (positive : 0 < interval.value) :
    (10 : ℚ) ^ (interval.magnitude - 1) * interval.denominator ≤ interval.value := by
  unfold magnitude
  set guess : Int := (digitCount interval.value : Int) - digitCount interval.denominator with guess_eq
  dsimp only
  split
  case isTrue =>
    have least : ((10 : ℚ) ^ (digitCount interval.value - 1)) ≤ interval.value := by
      exact_mod_cast pow_digitCount_le positive
    have most : (interval.denominator : ℚ) ≤ (10 : ℚ) ^ digitCount interval.denominator := by
      exact_mod_cast (lt_pow_digitCount interval.denominator).le
    have counted : 0 < digitCount interval.value := Nat.length_toDigits_pos
    calc (10 : ℚ) ^ (guess - 1) * interval.denominator
        ≤ (10 : ℚ) ^ (guess - 1) * (10 : ℚ) ^ digitCount interval.denominator := by gcongr
      _ = (10 : ℚ) ^ (digitCount interval.value - 1) := by
        rw [← zpow_natCast, ← zpow_natCast, ← zpow_add₀ (by norm_num)]
        congr 1
        omega
      _ ≤ interval.value := least
  case isFalse above =>
    rw [add_sub_cancel_right, zpow_eq_toNat (by norm_num), div_mul_eq_mul_div, div_le_iff₀ (by positivity), mul_comm]
    exact_mod_cast not_lt.1 above

/-- Seventeen digits reach below the width of an interval that is no narrower than `10^-16` of its value. -/
theorem shortest_contains (positive : 0 < interval.denominator) (inside : interval.lower < interval.value)
    (inside' : interval.value < interval.upper)
    (wide : interval.value + 10 ^ 16 * interval.lower < 10 ^ 16 * interval.upper) :
    interval.Contains (scaled interval.shortest.1 interval.shortest.2) := by
  have finest : (10 : ℚ) ^ (interval.magnitude - 17) * interval.denominator < interval.upper - interval.lower := by
    have wide : (interval.value + 10 ^ 16 * interval.lower : ℚ) < 10 ^ 16 * interval.upper := by exact_mod_cast wide
    have leading := zpow_magnitude_le (Nat.zero_lt_of_lt inside)
    have split : (10 : ℚ) ^ (interval.magnitude - 1) = 10 ^ 16 * (10 : ℚ) ^ (interval.magnitude - 17) := by
      rw [← zpow_natCast, ← zpow_add₀ (by norm_num)]
      congr 1
      push_cast
      ring
    rw [split] at leading
    linarith
  obtain ⟨digits, last⟩ := exists_nearest positive inside inside' finest
  let attempt (shorter : Nat) : Option (Nat × Int) :=
    (interval.nearest (interval.magnitude - (shorter + 1 : Nat))).map fun digits =>
      (digits, interval.magnitude - (shorter + 1 : Nat))
  have succeeds : ((List.range 17).findSome? attempt).isSome = true :=
    List.findSome?_isSome_iff.2 ⟨16, by simp, by simp [attempt, last]⟩
  obtain ⟨found, found_eq⟩ := Option.isSome_iff_exists.1 succeeds
  have shortest_eq : interval.shortest = found := by
    change ((List.range 17).findSome? attempt).getD _ = found
    rw [found_eq, Option.getD_some]
  obtain ⟨shorter, -, attempted⟩ := List.exists_of_findSome?_eq_some found_eq
  obtain ⟨digits', chosen, rfl⟩ := Option.map_eq_some_iff.1 attempted
  rw [shortest_eq]
  exact nearest_contains chosen

end Interval

theorem natOfDigits_eq (digits : List Char) : natOfDigits digits = Nat.ofDigitChars 10 digits 0 :=
  Nat.ofDigitChars_eq_foldl.symm

theorem isDigit_of_mem_zeros {c : Char} {count : Nat} (member : c ∈ List.replicate count '0') : isDigit c = true := by
  rw [List.eq_of_mem_replicate member]
  rfl

theorem natOfDigits_zeros (digits : List Char) (count : Nat) :
    natOfDigits (digits ++ List.replicate count '0') = natOfDigits digits * 10 ^ count := by
  rw [natOfDigits_eq, Nat.ofDigitChars_append, Nat.ofDigitChars_replicate_zero, natOfDigits_eq, mul_comm]

theorem exists_zeros (digits : List Char) :
    ∃ cut, (digits.reverse.dropWhile (· == '0')).reverse ++ List.replicate cut '0' = digits := by
  have zeros : digits.reverse.takeWhile (· == '0') =
      List.replicate (digits.reverse.takeWhile (· == '0')).length '0' :=
    List.eq_replicate_of_mem fun c member => by simpa using List.mem_takeWhile_imp member
  refine ⟨(digits.reverse.takeWhile (· == '0')).length, ?_⟩
  rw [← List.reverse_replicate, ← zeros, ← List.reverse_append, List.takeWhile_append_dropWhile,
    List.reverse_reverse]

section Unsigned
variable {whole fraction : List Char}

theorem parseUnsigned_whole (nonempty : whole ≠ []) (allDigits : ∀ c ∈ whole, isDigit c = true) :
    parseUnsigned whole = some (natOfDigits whole, 0) := by
  have taken : whole.takeWhile isDigit = whole := List.takeWhile_eq_self_iff.2 allDigits
  have dropped : whole.dropWhile isDigit = [] := List.dropWhile_eq_nil_iff.2 allDigits
  simp [parseUnsigned, taken, dropped, nonempty, parseExponent]

theorem parseUnsigned_point (nonempty : whole ≠ []) (allDigits : ∀ c ∈ whole, isDigit c = true)
    (allDigits' : ∀ c ∈ fraction, isDigit c = true) :
    parseUnsigned (whole ++ '.' :: fraction) = some (natOfDigits (whole ++ fraction), -(fraction.length : Int)) := by
  have taken : (whole ++ '.' :: fraction).takeWhile isDigit = whole := by
    rw [List.takeWhile_append_of_pos allDigits]
    simp [isDigit]
  have dropped : (whole ++ '.' :: fraction).dropWhile isDigit = '.' :: fraction := by
    rw [List.dropWhile_append_of_pos allDigits]
    rfl
  have taken' : fraction.takeWhile isDigit = fraction := List.takeWhile_eq_self_iff.2 allDigits'
  have dropped' : fraction.dropWhile isDigit = [] := List.dropWhile_eq_nil_iff.2 allDigits'
  simp [parseUnsigned, taken, dropped, taken', dropped', nonempty, parseExponent]

end Unsigned

/-- The digits of a number, with zeros in front so that one digit at least stands before the given number of places. -/
def padded (digits places : Nat) : List Char :=
  List.replicate (places + 1 - (Nat.toDigits 10 digits).length) '0' ++ Nat.toDigits 10 digits

theorem lt_length_padded (digits places : Nat) : places < (padded digits places).length := by
  simp only [padded, List.length_append, List.length_replicate]
  omega

theorem isDigit_of_mem_padded {digits places : Nat} {c : Char} (member : c ∈ padded digits places) :
    isDigit c = true := by
  rcases List.mem_append.1 member with zero | digit
  · exact isDigit_of_mem_zeros zero
  · exact Nat.isDigit_of_mem_toDigits (by norm_num) (by norm_num) digit

theorem natOfDigits_padded (digits places : Nat) : natOfDigits (padded digits places) = digits := by
  rw [natOfDigits_eq, padded, Nat.ofDigitChars_append, Nat.ofDigitChars_replicate_zero, mul_zero,
    Nat.ofDigitChars_ten_toDigits]

/-- How a text without an exponent is put together: digits of a whole part, then zeros up to the place, or a point and
a fraction; zeros at the end of a fraction are cut. -/
theorem positional_layout (digits : Nat) (place : Int) : ∃ whole fraction cut,
    whole ≠ [] ∧ (∀ c ∈ whole ++ fraction, isDigit c = true) ∧
    natOfDigits (whole ++ fraction) * 10 ^ cut = digits ∧ fraction.length + cut = (-place).toNat ∧
    (positional digits place).toList =
      if fraction.isEmpty then whole ++ List.replicate place.toNat '0' else whole ++ '.' :: fraction := by
  let chars := padded digits (-place).toNat
  let count := chars.length - (-place).toNat
  let fraction := ((chars.drop count).reverse.dropWhile (· == '0')).reverse
  have enough : (-place).toNat < chars.length := lt_length_padded digits _
  obtain ⟨cut, restored⟩ := exists_zeros (chars.drop count)
  have joined : chars.take count ++ fraction ++ List.replicate cut '0' = chars := by
    rw [List.append_assoc, restored, List.take_append_drop]
  refine ⟨chars.take count, fraction, cut, ?_, ?_, ?_, ?_, ?_⟩
  · rw [Ne, List.take_eq_nil_iff, not_or, ← List.length_eq_zero_iff]
    omega
  · intro c member
    exact isDigit_of_mem_padded (joined ▸ List.mem_append_left _ member)
  · rw [← natOfDigits_zeros, joined, natOfDigits_padded]
  · have lengths : (fraction ++ List.replicate cut '0').length = (chars.drop count).length :=
      congrArg List.length restored
    rw [List.length_append, List.length_replicate, List.length_drop] at lengths
    omega
  · simp only [positional]
    rw [apply_ite String.toList, String.toList_ofList, String.toList_ofList]
    rfl

/-- The text of a decimal reads back to its value. -/
theorem parseUnsigned_positional (digits : Nat) (place : Int) :
    ∃ number, parseUnsigned (positional digits place).toList = some number ∧
      scaled number.1 number.2 = scaled digits place := by
  obtain ⟨whole, fraction, cut, nonempty, allDigits, digits_eq, places_eq, layout⟩ := positional_layout digits place
  have inWhole : ∀ c ∈ whole, isDigit c = true := fun c member => allDigits c (List.mem_append_left _ member)
  have inFraction : ∀ c ∈ fraction, isDigit c = true := fun c member => allDigits c (List.mem_append_right _ member)
  rw [layout]
  split
  case isTrue empty =>
    have allDigits : ∀ c ∈ whole ++ List.replicate place.toNat '0', isDigit c = true := by
      intro c member
      rcases List.mem_append.1 member with inside | zero
      · exact inWhole c inside
      · exact isDigit_of_mem_zeros zero
    rw [List.isEmpty_iff.1 empty, List.length_nil] at places_eq
    rw [List.isEmpty_iff.1 empty, List.append_nil] at digits_eq
    refine ⟨_, parseUnsigned_whole (by simp [nonempty]) allDigits, ?_⟩
    rw [natOfDigits_zeros, scaled_mul_pow, ← digits_eq, scaled_mul_pow]
    congr 1
    omega
  case isFalse written =>
    have written : 0 < fraction.length := by simpa [List.length_pos_iff] using written
    refine ⟨_, parseUnsigned_point nonempty inWhole inFraction, ?_⟩
    rw [← digits_eq, scaled_mul_pow]
    congr 1
    omega

theorem positional_ne_nil (digits : Nat) (place : Int) : (positional digits place).toList ≠ [] := by
  obtain ⟨number, read, -⟩ := parseUnsigned_positional digits place
  intro empty
  rw [empty] at read
  cases read

theorem mem_positional {digits : Nat} {place : Int} {c : Char} (member : c ∈ (positional digits place).toList) :
    isDigit c = true ∨ c = '.' := by
  obtain ⟨whole, fraction, cut, -, allDigits, -, -, layout⟩ := positional_layout digits place
  rw [layout] at member
  split at member
  case isTrue =>
    rcases List.mem_append.1 member with inside | zero
    · exact .inl (allDigits c (List.mem_append_left _ inside))
    · exact .inl (isDigit_of_mem_zeros zero)
  case isFalse =>
    simp only [List.mem_append, List.mem_cons] at member allDigits
    rcases member with inside | point | inside
    · exact .inl (allDigits c (.inl inside))
    · exact .inr point
    · exact .inl (allDigits c (.inr inside))

end CircuitRunner.Decimal
