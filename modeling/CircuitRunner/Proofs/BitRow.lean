import CircuitRunner.Backend
import Mathlib.Data.List.Induction

/-! The row that a measured state gives to a bit register: every entry holds the qubit of the
last readout that names it. -/
namespace CircuitRunner.Backend
variable {R : Type}

def written (readouts : List Readout) (bits : List Bool) (register : String) (index : Nat) :
    Option Bool :=
  (readouts.filter fun readout => readout.register == register && readout.index == index).getLast?.map
    fun readout => bits[readout.qubit]?.getD false

theorem written_append (first second : List Readout) (bits : List Bool) (register : String)
    (index : Nat) :
    written (first ++ second) bits register index =
      (written second bits register index).or (written first bits register index) := by
  simp only [written, List.filter_append, List.getLast?_append]
  cases (second.filter _).getLast? <;> rfl

theorem written_single (readout : Readout) (bits : List Bool) (register : String) (index : Nat) :
    written [readout] bits register index =
      if readout.register = register ∧ readout.index = index then
        some (bits[readout.qubit]?.getD false)
      else none := by
  by_cases hit : readout.register = register ∧ readout.index = index
  · simp [written, hit]
  · simp only [written, List.filter_cons, Bool.and_eq_true, beq_iff_eq, hit, if_false]
    rfl

theorem setBit?_bits (entries : List Bool) (index : Nat) (value : Bool) :
    (Row.setBit? (R := R) (.bits entries) index value).getD (.bits entries) =
      .bits (entries.set index value) := by
  by_cases inside : index < entries.length
  · simp [Row.setBit?, inside]
  · simp [Row.setBit?, inside, List.set_eq_of_length_le (Nat.le_of_not_lt inside)]

variable [Scalar R]

theorem bitRow_concat (readouts : List Readout) (readout : Readout) (bits : List Bool)
    (definition : Definition) :
    (bitRow (readouts ++ [readout]) bits definition : Row R) =
      if readout.register = definition.name then
        ((bitRow readouts bits definition).setBit? readout.index
          (bits[readout.qubit]?.getD false)).getD (bitRow readouts bits definition)
      else bitRow readouts bits definition := by
  by_cases hit : readout.register = definition.name <;> simp [bitRow, List.filter_append, hit]

theorem bitRow_written (readouts : List Readout) (bits : List Bool) (definition : Definition) :
    (bitRow readouts bits definition : Row R) = .bits ((List.range definition.length).map
      fun index => (written readouts bits definition.name index).getD false) := by
  induction readouts using List.reverseRecOn with
  | nil => simp [bitRow, written, Row.zeroed, List.map_const']
  | append_singleton readouts readout ih =>
    rw [bitRow_concat]
    by_cases hit : readout.register = definition.name
    · rw [if_pos hit, ih, setBit?_bits]
      congr 1
      apply List.ext_getElem
      · simp
      · intro index left right
        simp only [List.getElem_set, List.getElem_map, List.getElem_range, written_append,
          written_single, hit, true_and]
        by_cases same : readout.index = index <;> simp [same]
    · rw [if_neg hit, ih]
      congr 1
      apply List.map_congr_left
      intro index _
      simp [written_append, written_single, hit]

end CircuitRunner.Backend
