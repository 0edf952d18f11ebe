import CircuitRunner.Scalar

/-! Plain data trees, the form in which circuits, results and settings are stored. -/
namespace CircuitRunner

inductive Value (R : Type) where
  | null
  | bool (value : Bool)
  | integer (value : Int)
  | real (value : R)
  | text (value : String)
  | list (items : List (Value R))
  | record (fields : List (String × Value R))

theorem mem_of_mapM_some {α β : Type} {read : α → Option β} {values : List α} {contents : List β}
    (ok : values.mapM read = some contents) {content : β} (member : content ∈ contents) :
    ∃ value ∈ values, read value = some content := by
  induction values generalizing contents with
  | nil =>
    cases ok
    cases member
  | cons value rest ih =>
    simp only [List.mapM_cons, Option.bind_eq_bind, Option.bind_eq_some_iff, Option.pure_def,
      Option.some.injEq] at ok
    obtain ⟨first, isFirst, others, areOthers, rfl⟩ := ok
    rcases List.mem_cons.1 member with rfl | later
    · exact ⟨value, List.mem_cons_self, isFirst⟩
    · obtain ⟨source, inRest, isContent⟩ := ih areOthers later
      exact ⟨source, List.mem_cons_of_mem _ inRest, isContent⟩

namespace Value
variable {R : Type}

def bool? : Value R → Option Bool
  | .bool value => some value
  | _ => none

def text? : Value R → Option String
  | .text value => some value
  | _ => none

def word? (width : Nat) : Value R → Option Nat
  | .integer value => if 0 ≤ value ∧ value.toNat < Nat.pow 2 width then some value.toNat else none
  | _ => none

def number? [Literal R] : Value R → Option R
  | .integer value => some (Literal.ofInt value)
  | .real value => some value
  | _ => none

def listOf? {α : Type} (decode : Value R → Option α) : Value R → Option (List α)
  | .list items => items.mapM decode
  | _ => none

def named? (names : List String) : Value R → Option (List (Value R))
  | .record fields => names.mapM (fields.lookup ·)
  | _ => none

/-- The named fields in order, where a list of exactly as many items stands for a record
without its names. -/
def fields? (names : List String) : Value R → Option (List (Value R))
  | .list items => if items.length = names.length then some items else none
  | value => value.named? names

/-- As `fields?` for fields that may be absent; a list may end early. -/
def optionalFields? (names : List String) : Value R → Option (List (Option (Value R)))
  | .record fields => some (names.map (fields.lookup ·))
  | .list items =>
    if items.length ≤ names.length then
      some (items.map some ++ List.replicate (names.length - items.length) none)
    else none
  | _ => none

def variant? : Value R → Option (String × Value R)
  | .record [field] => some field
  | _ => none

/-- A real number; those that are not finite have no written form. -/
def ofReal [Literal R] (value : R) : Value R :=
  if Literal.isFinite value then .real value else .null

def ofNat (value : Nat) : Value R := .integer value

theorem sizeOf_lt_of_lookup {fields : List (String × Value R)} {name : String} {value : Value R}
    (found : fields.lookup name = some value) : sizeOf value < sizeOf fields := by
  induction fields with
  | nil => simp at found
  | cons field rest ih =>
    obtain ⟨key, content⟩ := field
    rw [List.lookup_cons] at found
    split at found
    · cases found
      simp
      omega
    · have := ih found
      simp
      omega

/-- Every field of a record is smaller than the record. -/
theorem sizeOf_lt_of_mem_named (field : Value R) {names : List String} {value : Value R}
    {fields : List (Value R)} (found : value.named? names = some fields) (member : field ∈ fields) :
    sizeOf field < sizeOf value := by
  match value with
  | .record stored =>
    obtain ⟨name, -, isField⟩ := mem_of_mapM_some found member
    have := sizeOf_lt_of_lookup isField
    simp
    omega

/-- Every field of a value is smaller than the value. -/
theorem sizeOf_lt_of_mem_fields (field : Value R) {names : List String} {value : Value R}
    {fields : List (Value R)} (found : value.fields? names = some fields) (member : field ∈ fields) :
    sizeOf field < sizeOf value := by
  unfold fields? at found
  split at found
  · split at found
    · cases found
      have := List.sizeOf_lt_of_mem member
      simp
      omega
    · simp at found
  · exact sizeOf_lt_of_mem_named field found member

end Value
end CircuitRunner
