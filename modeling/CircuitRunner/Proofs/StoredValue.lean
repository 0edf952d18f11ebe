import CircuitRunner.Operation.Format
import CircuitRunner.Proofs.SucceedsWith
import CircuitRunner.Proofs.TableLookup
import Mathlib.Logic.Basic

/-! Writing a piece of data and reading it back. A reader stores what it reads if reading undoes
writing on the data that have a written form, refuses the rest, and finds only such data in a tree
of finite numbers. -/
namespace CircuitRunner

variable {R : Type} [Literal R]

namespace Value

inductive Finite : Value R → Prop where
  | null : Finite .null
  | bool (value : Bool) : Finite (.bool value)
  | integer {value : Int} (finite : Literal.isFinite (Literal.ofInt value : R) = true) : Finite (.integer value)
  | real {value : R} (finite : Literal.isFinite value = true) : Finite (.real value)
  | text (value : String) : Finite (.text value)
  | list {items : List (Value R)} (finite : ∀ item ∈ items, Finite item) : Finite (.list items)
  | record {fields : List (String × Value R)} (finite : ∀ field ∈ fields, Finite field.2) :
    Finite (.record fields)

@[simp] theorem finite_integer {value : Int} :
    (integer (R := R) value).Finite ↔ Literal.isFinite (Literal.ofInt value : R) = true :=
  ⟨fun | .integer finite => finite, .integer⟩

@[simp] theorem finite_list {items : List (Value R)} : (list items).Finite ↔ ∀ item ∈ items, item.Finite :=
  ⟨fun | .list finite => finite, .list⟩

@[simp] theorem finite_record {fields : List (String × Value R)} :
    (record fields).Finite ↔ ∀ field ∈ fields, field.2.Finite :=
  ⟨fun | .record finite => finite, .record⟩

end Value

@[simp] theorem guard_bind {α β : Type} (keep : α → Bool) (content : α) (next : α → Option β) :
    (Option.guard keep content).bind next = if keep content then next content else none := by
  unfold Option.guard
  split <;> rfl

theorem mapM_guard {α β : Type} {write : α → β} {read : β → Option α} {keep : α → Bool}
    {contents : List α}
    (back : ∀ content ∈ contents, read (write content) = Option.guard keep content) :
    (contents.map write).mapM read = Option.guard (·.all keep) contents := by
  induction contents with
  | nil => rfl
  | cons content rest ih =>
    have first := back content List.mem_cons_self
    have others := ih fun other member => back other (List.mem_cons_of_mem _ member)
    simp only [List.map_cons, List.mapM_cons, Option.bind_eq_bind, Option.pure_def, first, others, guard_bind]
    simp only [Option.guard, List.all_cons, Bool.and_eq_true, ite_and]

namespace Value

theorem Finite.of_number {value : Value R} (finite : value.Finite) {number : R}
    (found : value.number? = some number) : Literal.isFinite number = true := by
  cases finite with
  | integer finite | real finite =>
    cases found
    exact finite
  | _ => cases found

theorem Finite.of_variant {value : Value R} (finite : value.Finite) {tag : String} {content : Value R}
    (found : value.variant? = some (tag, content)) : content.Finite := by
  cases finite with
  | @record fields finite =>
    match fields, found with
    | [(_, _)], rfl => exact finite (tag, content) List.mem_cons_self
  | _ => cases found

theorem Finite.of_lookup {fields : List (String × Value R)} (finite : (Value.record fields).Finite) {name : String}
    {field : Value R} (found : fields.lookup name = some field) : field.Finite := by
  obtain ⟨before, after, rfl, -⟩ := List.lookup_eq_some_iff.1 found
  exact finite_record.1 finite (name, field) (by simp)

theorem Finite.of_named {value : Value R} (finite : value.Finite) {names : List String} {fields : List (Value R)}
    (found : value.named? names = some fields) : ∀ field ∈ fields, field.Finite := by
  intro field member
  cases value with
  | record stored =>
    obtain ⟨name, -, isField⟩ := mem_of_mapM_some found member
    exact finite.of_lookup isField
  | _ => cases found

theorem Finite.of_reading {α : Type} {value : Value R} (finite : value.Finite) {names : List String}
    {next : List (Value R) → Option α} {content : α} (ok : (value.named? names).bind next = some content) :
    ∃ fields, (∀ field ∈ fields, field.Finite) ∧ next fields = some content := by
  obtain ⟨fields, named, ok⟩ := Option.bind_eq_some_iff.1 ok
  exact ⟨fields, finite.of_named named, ok⟩

theorem Finite.of_fields {value : Value R} (finite : value.Finite) {names : List String} {fields : List (Value R)}
    (found : value.fields? names = some fields) : ∀ field ∈ fields, field.Finite := by
  unfold fields? at found
  split at found
  · split at found
    · cases found
      exact finite_list.1 finite
    · cases found
  · exact finite.of_named found

omit [Literal R] in
/-- A record written field by field is read field by field. -/
theorem named?_zip {names : List String} (distinct : names.Nodup) {values : List (Value R)}
    (sameLength : names.length = values.length) : (record (names.zip values)).named? names = some values := by
  have own : values.mapM some = some (values.map id) := List.mapM_pure
  rw [List.map_id] at own
  exact (mapM_zip sameLength fun _ member => Table.lookup_zip distinct member).trans own

end Value

/-- Reading undoes writing on what is storable, refuses what is not, and finds in a tree of finite
numbers only what is storable. -/
structure Stores {α : Type} (write : α → Value R) (read : Value R → Option α) (storable : α → Bool) :
    Prop where
  back : ∀ content, read (write content) = Option.guard storable content
  sound : ∀ {value content}, value.Finite → read value = some content → storable content = true

namespace Stores

variable {α : Type} {write : α → Value R} {read : Value R → Option α} {storable : α → Bool}

theorem sound_mapM (stores : Stores write read storable) {values : List (Value R)} {contents : List α}
    (finite : ∀ value ∈ values, value.Finite) (ok : values.mapM read = some contents) :
    contents.all storable = true := by
  refine List.all_eq_true.2 fun content member => ?_
  obtain ⟨value, inValues, isContent⟩ := mem_of_mapM_some ok member
  exact stores.sound (finite value inValues) isContent

theorem list (stores : Stores write read storable) :
    Stores (fun contents => .list (contents.map write)) (Value.listOf? read) (·.all storable) where
  back contents := mapM_guard fun content _ => stores.back content
  sound {value contents} finite ok := by
    cases finite with
    | list finite => exact stores.sound_mapM finite ok
    | _ => cases ok

end Stores

def isWord (number : Nat) : Bool := number < Nat.pow 2 64

theorem stores_index : Stores (R := R) Value.ofNat decodeIndex isWord where
  back number := by
    simp [Value.ofNat, decodeIndex, Value.word?, isWord, Option.guard]
  sound {value number} finite ok := by
    cases value with
    | integer value =>
      obtain ⟨⟨-, fits⟩, same⟩ := Option.ite_none_right_eq_some.1 ok
      cases same
      exact decide_eq_true fits
    | _ => cases ok

namespace Parameter

def isFinite : Parameter R → Bool
  | .literal value => Literal.isFinite value
  | .symbol _ => true

theorem stores : Stores (R := R) encode decode isFinite where
  back parameter := by
    cases parameter with
    | literal value =>
      change (Value.ofReal value).number?.map Parameter.literal = _
      unfold Value.ofReal Option.guard isFinite
      split <;> rfl
    | symbol expression => rfl
  sound {value parameter} finite ok := by
    unfold decode at ok
    obtain ⟨⟨tag, content⟩, isVariant, read⟩ := Option.bind_eq_some_iff.1 ok
    split at read
    · obtain ⟨number, isNumber, rfl⟩ := Option.map_eq_some_iff.1 read
      rename_i same
      cases same
      exact (finite.of_variant isVariant).of_number isNumber
    · obtain ⟨expression, -, rfl⟩ := Option.map_eq_some_iff.1 read
      rfl
    · cases read

end Parameter
end CircuitRunner
