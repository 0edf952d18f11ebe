import CircuitRunner.Configuration
import CircuitRunner.Scalar
import CircuitRunner.Yaml.Document

/-! Settings read from documents and from the environment. -/
namespace CircuitRunner.Configuration

open Yaml (Node)

def readBase? (base : Nat) (digits : List Char) : Option Nat :=
  let value (c : Char) : Option Nat := (Yaml.hexDigit? c).filter (· < base)
  if digits.isEmpty then none
  else (digits.mapM value).map fun values => values.foldl (fun total digit => base * total + digit) 0

/-- An unsigned number: decimal without leading zeros, or with a base mark; a plus sign may
come first. -/
def readNumber? (chars : List Char) : Option Nat :=
  let unsigned := match chars with
    | '+' :: rest => rest
    | _ => chars
  match unsigned with
  | '0' :: 'x' :: digits => readBase? 16 digits
  | '0' :: 'o' :: digits => readBase? 8 digits
  | '0' :: 'b' :: digits => readBase? 2 digits
  | ['0'] => some 0
  | '0' :: _ => none
  | digits => readBase? 10 digits

/-- The text of a number or truth value: a scalar without quotes, or a literal block that is
tagged with the type. -/
def plainText? (type : String) : Node Nat → Option String
  | .scalar _ _ .plain text => some text
  | .scalar _ (some tag) .literal text => if tag == "tag:yaml.org,2002:" ++ type then some text else none
  | _ => none

def word? (width : Nat) (node : Node Nat) : Option Nat := do
  (readNumber? (← plainText? "int" node).toList).filter (· < Nat.pow 2 width)

def bool? (node : Node Nat) : Option Bool := do
  match ← plainText? "bool" node with
  | "true" | "True" | "TRUE" => some true
  | "false" | "False" | "FALSE" => some false
  | _ => none

def text? : Node Nat → Option String
  | .scalar _ _ _ text => some text
  | _ => none

def items? : Node Nat → Option (List (Node Nat))
  | .sequence _ items => some items
  | .scalar _ _ .plain "" => some []
  | _ => none

def isNullText (text : String) : Bool := ["null", "Null", "NULL", "~"].contains text

/-- Whether a node holds a value. Under the tag of the null value it has to be written out;
any other tag makes a value of it. -/
def holdsValue? : Node Nat → Option Bool
  | .scalar _ none .plain text => some (!(text.isEmpty || isNullText text))
  | .scalar _ (some "tag:yaml.org,2002:null") .plain text =>
    if isNullText text then some false else none
  | _ => some true

section Observable
variable {R : Type} [Scalar R] [Literal R] (document : Yaml.Document)

def real? (node : Node Nat) : Option R := do
  let text ← plainText? "float" (document.follow node)
  let infinity : R := 1 / 0
  let unsigned := match text.toList with
    | '+' :: rest => rest
    | chars => chars
  let positive := String.ofList unsigned
  if [".inf", ".Inf", ".INF"].contains positive then some infinity
  else if ["-.inf", "-.Inf", "-.INF"].contains text then some (-infinity)
  else if [".nan", ".NaN", ".NAN"].contains text then some (0 / 0)
  else if text.startsWith "+" && (positive.startsWith "+" || positive.startsWith "-") then none
  else (Literal.read positive).filter Literal.isFinite

def complex? (node : Node Nat) : Option (ComplexNumber R) := do
  match ← items? (document.follow node) with
  | [re, im] => return ⟨← real? document re, ← real? document im⟩
  | _ => none

def observable? (node : Node Nat) : Option (Option (List (List (ComplexNumber R)))) := do
  if ← holdsValue? node then
    let rows ← items? node
    return some (← rows.mapM fun row => do (← items? (document.follow row)).mapM (complex? document))
  else return none

end Observable

variable {R : Type} [Scalar R] [Literal R]

def fieldOr? {α : Type} (entries : List (String × Node Nat)) (name : String) (default : α)
    (read : Node Nat → Option α) : Option α :=
  match entries.filter (·.1 == name) with
  | [] => some default
  | [entry] => read entry.2
  | _ => none

def ofEntries? (document : Yaml.Document) (entries : List (String × Node Nat)) :
    Option (Configuration R) := do
  return { numberOfQubits := ← fieldOr? entries "number_qubits" 1 (word? 64)
           numberOfMeasurements := ← fieldOr? entries "number_measurements" 1 (word? 32)
           jobType := ← fieldOr? entries "job_type" "SAMPLE" text?
           observable := ← fieldOr? entries "observable" none (observable? document)
           identityPadding := ← fieldOr? entries "apply_identity_to_idle" false bool? }

def settingNames : List String :=
  ["number_qubits", "number_measurements", "job_type", "observable", "apply_identity_to_idle"]

/-- The number of aliases that are followed to read an entry: at its key and, for a setting,
at its value and down to the numbers of an observable. -/
def detours (document : Yaml.Document) (name : String) (entry : Node Nat × Node Nat) : Nat :=
  document.detours 1 entry.1 +
    if settingNames.contains name then document.detours 4 entry.2 else 0

/-- A mapping with text keys; a document without content has only defaults. No more aliases
may be followed than a hundred times the size of the document. -/
def ofYaml? (document : Yaml.Document) : Option (Configuration R) :=
  match document.root with
  | .mapping _ entries => do
    let names ← entries.mapM fun entry => text? (document.follow entry.1)
    let followed := (names.zip entries).foldl (fun count (name, entry) =>
      count + detours document name entry) 0
    if 100 * document.root.size < followed then none
    else ofEntries? document (names.zip (entries.map fun entry => document.follow entry.2))
  | .scalar _ _ .plain "" => some {}
  | _ => none

def ofDocument (text : String) : Except ConfigurationError (Configuration R) := do
  let some configuration := (Yaml.Document.parse? text).bind ofYaml? | .error .malformed
  configuration.validate
  return configuration

def ofFile (contents : Except FileError String) : Except ConfigurationError (Configuration R) := do
  ofDocument (← contents.mapError .unreadable)

def ofEnvironment (lookup : String → Option String) : Configuration R :=
  ({} : Configuration R).override lookup

def load (file : Option (Except FileError String)) (lookup : String → Option String) :
    Except ConfigurationError (Configuration R) := do
  let base ← match file with
    | some contents => ofFile contents
    | none => .ok {}
  let configuration := base.override lookup
  configuration.validate
  return configuration

end CircuitRunner.Configuration
