import CircuitRunner.Yaml.Node

/-! Documents with their references: an alias stands for the node that its anchor names. -/
namespace CircuitRunner.Yaml

namespace Node

abbrev Names := List (String × Nat)

/-- Numbers an anchor by the count of names before it. A name that is given again keeps its
last number. -/
def number (names : Names) : Option String → Option Nat × Names
  | none => (none, names)
  | some name => (some names.length, (name, names.length) :: names.filter (·.1 ≠ name))

mutual

def link (names : Names) : Node String → Option (Node Nat × Names)
  | .scalar label tag style text =>
    let (label, names) := number names label
    some (.scalar label tag style text, names)
  | .sequence label items => do
    let (label, names) := number names label
    let (items, names) ← linkItems names items
    return (.sequence label items, names)
  | .mapping label entries => do
    let (label, names) := number names label
    let (entries, names) ← linkEntries names entries
    return (.mapping label entries, names)
  | .alias name => (names.lookup name).map fun label => (.alias label, names)

def linkItems (names : Names) : List (Node String) → Option (List (Node Nat) × Names)
  | [] => some ([], names)
  | item :: rest => do
    let (item, names) ← link names item
    let (rest, names) ← linkItems names rest
    return (item :: rest, names)

def linkEntries (names : Names) :
    List (Node String × Node String) → Option (List (Node Nat × Node Nat) × Names)
  | [] => some ([], names)
  | (key, value) :: rest => do
    let (key, names) ← link names key
    let (value, names) ← link names value
    let (rest, names) ← linkEntries names rest
    return ((key, value) :: rest, names)

end

def entry {L : Type} (label : Option L) (node : Node L) : List (L × Node L) :=
  (label.map fun label => (label, node)).toList

mutual

def labelled {L : Type} : Node L → List (L × Node L)
  | .scalar label tag style text => entry label (.scalar label tag style text)
  | .sequence label items => entry label (.sequence label items) ++ labelledItems items
  | .mapping label entries => entry label (.mapping label entries) ++ labelledEntries entries
  | .alias _ => []

def labelledItems {L : Type} : List (Node L) → List (L × Node L)
  | [] => []
  | item :: rest => labelled item ++ labelledItems rest

def labelledEntries {L : Type} : List (Node L × Node L) → List (L × Node L)
  | [] => []
  | (key, value) :: rest => labelled key ++ labelled value ++ labelledEntries rest

end

mutual

/-- The number of scalars, aliases and ends of collections. -/
def size {L : Type} : Node L → Nat
  | .scalar .. | .alias _ => 1
  | .sequence _ items => 2 + sizeItems items
  | .mapping _ entries => 2 + sizeEntries entries

def sizeItems {L : Type} : List (Node L) → Nat
  | [] => 0
  | item :: rest => size item + sizeItems rest

def sizeEntries {L : Type} : List (Node L × Node L) → Nat
  | [] => 0
  | (key, value) :: rest => size key + size value + sizeEntries rest

end

end Node

structure Document where
  root : Node Nat
  /-- The labelled nodes, the last first: of two nodes with one label the last counts. -/
  targets : List (Nat × Node Nat)

namespace Document

def ofNode? (node : Node String) : Option Document :=
  (node.link []).map fun (root, _) => ⟨root, root.labelled.reverse⟩

def parse? (text : String) : Option Document := do
  ofNode? (← Node.ofTokens? (← tokenize text))

def follow (document : Document) : Node Nat → Node Nat
  | .alias label => (document.targets.lookup label).getD (.alias label)
  | node => node

/-- The number of aliases followed on the way to the nodes at most so many levels down. -/
def detours (document : Document) : Nat → Node Nat → Nat
  | 0, _ => 0
  | levels + 1, node =>
    let here := match node with
      | .alias _ => 1
      | _ => 0
    match document.follow node with
    | .sequence _ items => items.foldl (fun count item => count + document.detours levels item) here
    | _ => here

end Document
end CircuitRunner.Yaml
