import CircuitRunner.Table
import Mathlib.Data.List.Nodup

/-! What a table answers after a change: an insertion shows under its own name only, and of two
merged tables the second has the say wherever it knows a name. -/
namespace CircuitRunner.Table
variable {α : Type}

theorem lookup_pair (key query : String) (value : α) (rest : List (String × α)) :
    List.lookup query ((key, value) :: rest) =
      if query = key then some value else rest.lookup query := by
  by_cases found : query = key
  · simp [found]
  · rw [List.lookup_cons, beq_false_of_ne found, if_neg found]

/-- Entries under different names do not hide one another. -/
theorem lookup_zip {ν : Type} [BEq ν] [LawfulBEq ν] {names : List ν} (distinct : names.Nodup) {values : List α}
    {name : ν} {value : α} (member : (name, value) ∈ names.zip values) :
    (names.zip values).lookup name = some value := by
  induction names generalizing values with
  | nil => cases member
  | cons head rest ih =>
    obtain ⟨fresh, distinctRest⟩ := List.nodup_cons.1 distinct
    obtain _ | ⟨first, others⟩ := values
    · cases member
    rw [List.zip_cons_cons, List.lookup_cons]
    rcases List.mem_cons.1 member with same | later
    · cases same
      simp
    · have different : (name == head) = false := by
        simpa using fun same : name = head => fresh (same ▸ (List.of_mem_zip later).1)
      rw [different]
      exact ih distinctRest later

theorem lookup_of_mem {ν : Type} [BEq ν] [LawfulBEq ν] {entries : List (ν × α)}
    (distinct : (entries.map Prod.fst).Nodup) {name : ν} {value : α} (member : (name, value) ∈ entries) :
    entries.lookup name = some value := by
  have paired : entries = (entries.map Prod.fst).zip (entries.map Prod.snd) := List.zip_of_prod rfl rfl
  rw [paired] at member ⊢
  exact lookup_zip distinct member

theorem get?_modify (table : Table α) (name query : String) (change : α → α) :
    (table.modify name change).get? query =
      if query = name then (table.get? query).map change else table.get? query := by
  obtain ⟨entries⟩ := table
  simp only [get?, modify]
  induction entries with
  | nil => simp
  | cons entry entries ih =>
    obtain ⟨key, value⟩ := entry
    rw [List.map_cons]
    by_cases changed : key = name
    · subst changed
      rw [if_pos (beq_self_eq_true key), lookup_pair, lookup_pair, ih]
      by_cases found : query = key <;> simp [found]
    · rw [if_neg (by simpa using changed), lookup_pair, lookup_pair, ih]
      by_cases found : query = key
      · subst found
        simp [changed]
      · simp [found]

theorem get?_insert (table : Table α) (name query : String) (value : α) :
    (table.insert name value).get? query = if query = name then some value else table.get? query := by
  unfold insert
  split
  · rename_i known
    rw [get?_modify]
    by_cases same : query = name
    · obtain ⟨old, found⟩ := Option.isSome_iff_exists.1 known
      rw [if_pos same, if_pos same, same, found]
      rfl
    · rw [if_neg same, if_neg same]
  · rename_i unknown
    have missing : table.get? name = none := by simpa [contains] using unknown
    simp only [get?, List.lookup_append, lookup_pair] at missing ⊢
    by_cases same : query = name
    · rw [same, missing]
      simp
    · simp [same]

def Distinct (table : Table α) : Prop := (table.entries.map Prod.fst).Nodup

theorem names_modify (table : Table α) (name : String) (change : α → α) :
    (table.modify name change).entries.map Prod.fst = table.entries.map Prod.fst := by
  rw [modify, List.map_map]
  apply List.map_congr_left
  intro entry _
  by_cases same : entry.1 = name <;> simp [same]

theorem get?_eq_none {table : Table α} {name : String} :
    table.get? name = none ↔ name ∉ table.entries.map Prod.fst := by
  simp only [get?, List.lookup_eq_none_iff, List.mem_map, not_exists, not_and]
  constructor
  · intro missing entry member same
    simpa [same] using missing entry member
  · intro absent entry member
    simpa using fun same => absent entry member same.symm

theorem names_insert (table : Table α) (name : String) (value : α) :
    (table.insert name value).entries.map Prod.fst =
      if name ∈ table.entries.map Prod.fst then table.entries.map Prod.fst
      else table.entries.map Prod.fst ++ [name] := by
  unfold insert
  by_cases known : table.get? name = none
  · rw [if_neg (by simp [contains, known]), if_neg (get?_eq_none.1 known), List.map_append, List.map_singleton]
  · have member : name ∈ table.entries.map Prod.fst := by
      by_contra absent
      exact known (get?_eq_none.2 absent)
    rw [if_pos (by simpa [contains, Option.isSome_iff_ne_none] using known), if_pos member, names_modify]

theorem distinct_insert {table : Table α} (distinct : table.Distinct) (name : String) (value : α) :
    (table.insert name value).Distinct := by
  rw [Distinct, names_insert]
  split
  · exact distinct
  · rename_i fresh
    rw [← List.concat_eq_append]
    exact distinct.concat fresh

theorem mem_insert {table : Table α} {name : String} {value : α} {entry : String × α}
    (member : entry ∈ (table.insert name value).entries) : entry ∈ table.entries ∨ entry = (name, value) := by
  unfold insert at member
  split at member
  · obtain ⟨old, listed, rfl⟩ := List.mem_map.1 member
    by_cases same : old.1 = name
    · simp [same]
    · simp [same, listed]
  · simpa using member

theorem modify_of_unknown {table : Table α} {name : String} (unknown : table.get? name = none) (change : α → α) :
    table.modify name change = table := by
  have kept : table.entries.map (fun entry => if entry.1 == name then (entry.1, change entry.2) else entry) =
      table.entries := by
    refine (List.map_congr_left fun entry member => ?_).trans (List.map_id _)
    have other : entry.1 ≠ name := fun same => get?_eq_none.1 unknown (List.mem_map.2 ⟨entry, member, same⟩)
    rw [if_neg (by simpa using other), id]
  rw [modify, kept]

/-- Of two insertions under one name the second counts. -/
theorem insert_insert (table : Table α) (name : String) (first second : α) :
    (table.insert name first).insert name second = table.insert name second := by
  have present : (table.insert name first).contains name = true := by
    rw [contains, get?_insert, if_pos rfl, Option.isSome_some]
  rw [insert, if_pos present]
  unfold insert
  split
  · simp only [modify, List.map_map, mk.injEq]
    apply List.map_congr_left
    intro entry _
    by_cases same : entry.1 = name <;> simp [same]
  · rename_i unknown
    have missing : table.get? name = none := by simpa [contains] using unknown
    have kept : table.entries.map _ = table.entries :=
      congrArg entries (modify_of_unknown missing fun _ => second)
    simp only [modify, List.map_append, kept, List.map_singleton, beq_self_eq_true, if_true]

/-- The entry of a known name is replaced in its place. -/
theorem entries_insert_of_get? {table : Table α} (distinct : table.Distinct) {name : String} {value : α}
    (found : table.get? name = some value) : ∃ before after,
      table.entries = before ++ (name, value) :: after ∧
        ∀ next, (table.insert name next).entries = before ++ (name, next) :: after := by
  obtain ⟨before, after, split, _⟩ := List.lookup_eq_some_iff.1 found
  refine ⟨before, after, split, fun next => ?_⟩
  rw [Distinct, split, List.map_append, List.map_cons, List.nodup_middle, List.nodup_cons,
    ← List.map_append] at distinct
  have kept (part : List (String × α)) (within : part ⊆ before ++ after) : part.map _ = part :=
    congrArg entries (modify_of_unknown (get?_eq_none.2 fun listed => distinct.1 (List.map_subset _ within listed))
      fun _ => next)
  rw [insert, if_pos (by rw [contains, found, Option.isSome_some]), modify, split, List.map_append, List.map_cons,
    kept before (List.subset_append_left _ _), kept after (List.subset_append_right _ _),
    if_pos (beq_self_eq_true name)]

theorem get?_merge (table : Table α) {other : Table α} (distinct : other.Distinct) (query : String) :
    (table.merge other).get? query = (other.get? query).or (table.get? query) := by
  obtain ⟨entries⟩ := other
  simp only [merge]
  induction entries generalizing table with
  | nil => rfl
  | cons entry entries ih =>
    obtain ⟨key, value⟩ := entry
    obtain ⟨absent, distinct⟩ := List.nodup_cons.1 distinct
    rw [List.foldl_cons, ih _ distinct, get?_insert]
    by_cases found : query = key
    · -- The entry is the only one of its name, so no later insertion replaces it.
      subst found
      have missing : (Table.mk entries).get? query = none := get?_eq_none.2 absent
      rw [missing, if_pos rfl]
      simp [get?]
    · simp only [get?, lookup_pair, if_neg found]

end CircuitRunner.Table
