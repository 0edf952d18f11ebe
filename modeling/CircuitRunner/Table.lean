/-! Named entries in order of their first insertion, each name once. -/
namespace CircuitRunner

structure Table (α : Type) where
  entries : List (String × α)

namespace Table
variable {α : Type}

def empty : Table α := ⟨[]⟩

def isEmpty (table : Table α) : Bool := table.entries.isEmpty

def get? (table : Table α) (name : String) : Option α := table.entries.lookup name

def contains (table : Table α) (name : String) : Bool := (table.get? name).isSome

def modify (table : Table α) (name : String) (change : α → α) : Table α :=
  ⟨table.entries.map fun entry => if entry.1 == name then (entry.1, change entry.2) else entry⟩

def insert (table : Table α) (name : String) (value : α) : Table α :=
  if table.contains name then table.modify name fun _ => value
  else ⟨table.entries ++ [(name, value)]⟩

def merge (table other : Table α) : Table α :=
  other.entries.foldl (fun table entry => table.insert entry.1 entry.2) table

def ofList (entries : List (String × α)) : Table α := empty.merge ⟨entries⟩

end Table
end CircuitRunner
