import CircuitRunner.Yaml.Character

/-! Scalars on a line: without quotes, in single quotes and in double quotes. Line breaks
inside a scalar are folded. -/
namespace CircuitRunner.Yaml

inductive ScalarStyle where
  | plain
  | quoted
  /-- A block whose line breaks are kept. -/
  | literal
  /-- A block whose line breaks are folded. -/
  | folded
  deriving DecidableEq, Repr

/-- What lies between two words of a scalar: blanks on a line, or line breaks. Both are
listed last first. -/
structure Gap where
  blanks : List Char := []
  breaks : List Char := []
  /-- Whether the line ended. -/
  broken : Bool := false
  /-- Whether it ended at an escaped line break, which leaves no trace. -/
  escaped : Bool := false

namespace Gap

def isEmpty (gap : Gap) : Bool := gap.blanks.isEmpty && !gap.broken

def blank (gap : Gap) (c : Char) : Gap :=
  if gap.broken then gap else { gap with blanks := c :: gap.blanks }

def newline (gap : Gap) (c : Char) : Gap :=
  { gap with blanks := [], breaks := c :: gap.breaks, broken := true }

/-- The text of a gap, last character first. A single line feed reads as a blank, and the
first of several is dropped. -/
def folded (gap : Gap) : List Char :=
  if !gap.broken then gap.blanks
  else if gap.escaped then gap.breaks
  else match gap.breaks.reverse with
    | ['\n'] => [' ']
    | '\n' :: others => others.reverse
    | _ => gap.breaks

end Gap

structure Scanned where
  text : String
  rest : List Char
  mark : Mark
  /-- Whether a line ended between the last word and what follows. -/
  lineEnded : Bool := false

/-- Reads a scalar without quotes. It ends at a colon before a blank, at a comment, at a line
indented less than `indent`, and in flow context at a bracket or comma. -/
def scanPlain (inFlow : Bool) (indent : Int) (text : List Char) (gap : Gap) :
    List Char → Mark → Option Scanned
  | [], mark => some ⟨String.ofList text.reverse, [], mark, gap.broken⟩
  | c :: rest, mark =>
    let done := some ⟨String.ofList text.reverse, c :: rest, mark, gap.broken⟩
    if isBreak c then scanPlain inFlow indent text (gap.newline c) rest mark.newline
    else if isSpace c then
      if c == '\t' && gap.broken && mark.column < indent then none
      else scanPlain inFlow indent text (gap.blank c) rest mark.next
    else if gap.broken && !inFlow && mark.column < indent then done
    else if !gap.isEmpty && (c == '#' || atDocumentMarker (c :: rest) mark) then done
    else if inFlow && c == ':' && (rest.head?.any (",?[]\x7b\x7d".toList.contains ·)) then none
    else if c == ':' && endsWord rest then done
    else if inFlow && ",[]\x7b\x7d".toList.contains c then done
    else scanPlain inFlow indent (c :: (gap.folded ++ text)) {} rest mark.next

def scanSingle (text : List Char) (gap : Gap) : List Char → Mark → Option Scanned
  | [], _ => none
  | '\x27' :: '\x27' :: rest, mark =>
    scanSingle ('\x27' :: (gap.folded ++ text)) {} rest (mark.advance 2)
  | c :: rest, mark =>
    if atDocumentMarker (c :: rest) mark then none
    else if isBreak c then scanSingle text (gap.newline c) rest mark.newline
    else if isSpace c then scanSingle text (gap.blank c) rest mark.next
    else if c == '\x27' then some ⟨String.ofList (gap.folded ++ text).reverse, rest, mark.next, false⟩
    else scanSingle (c :: (gap.folded ++ text)) {} rest mark.next

def escape? : Char → Option Char
  | '0' => some '\x00'
  | 'a' => some '\x07'
  | 'b' => some '\x08'
  | 't' | '\t' => some '\t'
  | 'n' => some '\n'
  | 'v' => some '\x0b'
  | 'f' => some '\x0c'
  | 'r' => some '\r'
  | 'e' => some '\x1b'
  | ' ' => some ' '
  | '\x22' => some '\x22'
  | '/' => some '/'
  | '\x5c' => some '\x5c'
  | 'N' => some '\u0085'
  | '_' => some '\u00a0'
  | 'L' => some '\u2028'
  | 'P' => some '\u2029'
  | _ => none

def escapeDigits : Char → Nat
  | 'x' => 2
  | 'u' => 4
  | 'U' => 8
  | _ => 0

def charOfHex? (digits : List Char) : Option Char := do
  let code := (← digits.mapM hexDigit?).foldl (fun total digit => 16 * total + digit) 0
  if 0x10FFFF < code ∨ (0xD800 ≤ code ∧ code ≤ 0xDFFF) then none else some (Char.ofNat code)

/-- Reads a scalar in double quotes, after the opening quote. `pending` holds the digits of a
hexadecimal escape (last first) and how many are still to come. -/
def scanDouble (text : List Char) (gap : Gap) (pending : Option (List Char × Nat)) :
    List Char → Mark → Option Scanned
  | [], _ => none
  | '\x5c' :: c :: rest, mark =>
    if pending.isSome then none
    else if isBreak c then
      scanDouble (gap.folded ++ text) { broken := true, escaped := true } none rest mark.next.newline
    else match escape? c, escapeDigits c with
      | some char, _ => scanDouble (char :: (gap.folded ++ text)) {} none rest (mark.advance 2)
      | none, 0 => none
      | none, count =>
        scanDouble (gap.folded ++ text) {} (some ([], count)) rest (mark.advance 2)
  | c :: rest, mark =>
    match pending with
    | some (digits, count) =>
      if count ≤ 1 then
        match charOfHex? (c :: digits).reverse with
        | some char => scanDouble (char :: text) {} none rest mark.next
        | none => none
      else if (hexDigit? c).isSome then
        scanDouble text {} (some (c :: digits, count - 1)) rest mark.next
      else none
    | none =>
      if atDocumentMarker (c :: rest) mark then none
      else if isBreak c then scanDouble text (gap.newline c) none rest mark.newline
      else if isSpace c then scanDouble text (gap.blank c) none rest mark.next
      else if c == '\x22' then
        some ⟨String.ofList (gap.folded ++ text).reverse, rest, mark.next, false⟩
      else scanDouble (c :: (gap.folded ++ text)) {} none rest mark.next

end CircuitRunner.Yaml
