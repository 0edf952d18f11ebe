import CircuitRunner.Yaml.Character

/-! Tags of nodes and the directives before a document. -/
namespace CircuitRunner.Yaml

/-- A tag as it is written: a handle that stands for the start of the full tag, and the rest.
Without a handle the rest is the full tag. -/
structure Tag where
  handle : String
  suffix : String
  deriving DecidableEq, Repr

inductive Directive where
  | version (major minor : Nat)
  /-- What a tag handle stands for. -/
  | tag (handle expansion : String)
  deriving DecidableEq, Repr

def isTagChar (wide : Bool) (c : Char) : Bool :=
  isWord c || ";/?:@&=+$.!~*\x27()".toList.contains c || (wide && ",[]".toList.contains c)

def followers? (octet : Nat) : Option Nat :=
  if octet < 0x80 then some 0
  else if octet < 0xC0 then none
  else if octet < 0xE0 then some 1
  else if octet < 0xF0 then some 2
  else if octet < 0xF8 then some 3
  else none

/-- Reads the characters of a tag. An octet may be written as a percent sign and two
hexadecimal digits; `pending` counts the octets that have to follow in this form. -/
def scanTagText (wide : Bool) (pending : Nat) : List Char → Option (List Char × List Char)
  | [] => if pending = 0 then some ([], []) else none
  | '%' :: high :: low :: rest => do
    let octet := 16 * (← hexDigit? high) + (← hexDigit? low)
    let pending ← if pending = 0 then followers? octet
      else if 0x80 ≤ octet ∧ octet < 0xC0 then some (pending - 1) else none
    let (text, after) ← scanTagText wide pending rest
    return (Char.ofNat octet :: text, after)
  | c :: rest =>
    if pending ≠ 0 ∨ c = '%' then none
    else if isTagChar wide c then do
      let (text, after) ← scanTagText wide 0 rest
      return (c :: text, after)
    else some ([], c :: rest)

/-- As `scanTagText`, where at least one character has to stand. A tag ends for good at a
null character. -/
def scanTagText1 (wide : Bool) (chars : List Char) : Option (String × List Char) := do
  let (text, rest) ← scanTagText wide 0 chars
  if rest.length == chars.length then none
  else some (String.ofList (text.takeWhile (· ≠ '\x00')), rest)

def scanHandle? : List Char → Option (List Char × Bool × List Char)
  | '!' :: rest =>
    let word := rest.takeWhile isWord
    match rest.dropWhile isWord with
    | '!' :: after => some ('!' :: word ++ ['!'], true, after)
    | after => some ('!' :: word, false, after)
  | _ => none

namespace Tag

/-- The tag behind an exclamation mark and a word that turned out to be no handle. A lone
mark is a full tag. -/
def ofWord (text : String) : Tag := if text.isEmpty then ⟨"", "!"⟩ else ⟨"!", text⟩

def scan? (inFlow : Bool) (chars : List Char) : Option (Tag × List Char) := do
  let (tag, rest) ← match chars with
    | '!' :: '<' :: full => do
      let (text, rest) ← scanTagText1 true full
      match rest with
      | '>' :: rest => some (⟨"", text⟩, rest)
      | _ => none
    | _ => do
      let (handle, closed, afterHandle) ← scanHandle? chars
      if closed then
        let (suffix, rest) ← scanTagText1 false afterHandle
        some (⟨String.ofList handle, suffix⟩, rest)
      else
        let (more, rest) ← scanTagText false 0 afterHandle
        some (ofWord (String.ofList ((handle.drop 1 ++ more).takeWhile (· ≠ '\x00'))), rest)
  if endsWord rest || (inFlow && rest.head? == some ',') then some (tag, rest) else none

def full? (tag : Tag) (handles : List (String × String)) : Option String :=
  if tag.handle.isEmpty then some tag.suffix
  else (handles.lookup tag.handle).map (· ++ tag.suffix)

end Tag

namespace Directive

def number? (chars : List Char) : Option (Nat × List Char) :=
  let digits := chars.takeWhile Char.isDigit
  if digits.isEmpty || 9 < digits.length then none
  else some (digits.foldl (fun total c => 10 * total + (c.toNat - '0'.toNat)) 0,
    chars.dropWhile Char.isDigit)

def version? (chars : List Char) : Option (Directive × List Char) := do
  let (major, rest) ← number? chars
  match rest with
  | '.' :: rest => do
    let (minor, rest) ← number? rest
    return (.version major minor, rest)
  | _ => none

def tag? (chars : List Char) : Option (Directive × List Char) := do
  let (handle, closed, rest) ← scanHandle? chars
  if !closed && handle.length ≠ 1 then none
  else if !(rest.head?.any isSpace) then none
  else
    let (expansion, rest) ← scanTagText1 true (rest.dropWhile isSpace)
    if endsWord rest then some (.tag (String.ofList handle) expansion, rest) else none

def scan? (chars : List Char) : Option (Directive × List Char) := do
  let name := String.ofList (chars.takeWhile isWord)
  let afterName := chars.dropWhile isWord
  if !endsWord afterName then none
  else
    let value := afterName.dropWhile isSpace
    let (directive, rest) ← match name with
      | "YAML" => version? value
      | "TAG" => tag? value
      | _ => none
    let after := skipComment rest
    if endsLine after then some (directive, after) else none

end Directive
end CircuitRunner.Yaml
