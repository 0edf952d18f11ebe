import CircuitRunner.Yaml.Scalar

/-! Block scalars: the lines after a bar or an angle bracket that are indented further than
what surrounds them. -/
namespace CircuitRunner.Yaml

inductive Chomping where
  /-- All are dropped. -/
  | strip
  /-- The first one stays. -/
  | clip
  /-- All stay. -/
  | keep
  deriving DecidableEq, Repr

namespace BlockScalar

def chomping? : Char → Option Chomping
  | '-' => some .strip
  | '+' => some .keep
  | _ => none

def increment? (c : Char) : Option Nat :=
  if '1' ≤ c && c ≤ '9' then some (c.toNat - '0'.toNat) else none

/-- The marks after the opening character, in either order; an indentation of zero stands
for none. Returns what follows them. -/
def header? : List Char → Option (Chomping × Nat × List Char)
  | [] => some (.clip, 0, [])
  | c :: rest =>
    match chomping? c with
    | some chomping =>
      match rest with
      | '0' :: _ => none
      | d :: after =>
        match increment? d with
        | some increment => some (chomping, increment, after)
        | none => some (chomping, 0, rest)
      | [] => some (chomping, 0, [])
    | none =>
      if c == '0' then none
      else match increment? c with
        | some increment =>
          match rest with
          | d :: after =>
            match chomping? d with
            | some chomping => some (chomping, increment, after)
            | none => some (.clip, increment, rest)
          | [] => some (.clip, increment, [])
        | none => some (.clip, 0, c :: rest)

end BlockScalar

structure BlockScalar where
  literal : Bool
  chomping : Chomping
  /-- The column of the lines; zero until the first line that is not empty settles it. -/
  indent : Nat
  /-- The least column that the first line may settle. -/
  least : Nat
  /-- The largest column reached before. -/
  widest : Nat := 0
  text : List Char := []
  /-- The line break after the last line that is not empty. -/
  lineBreak : List Char := []
  /-- The line breaks of the empty lines after it. -/
  emptyLines : List Char := []
  /-- Whether the last line that is not empty starts with a blank. -/
  startsBlank : Bool := false

namespace BlockScalar

def isBefore (block : BlockScalar) (column : Nat) : Bool :=
  block.indent == 0 || column < block.indent

def reach (block : BlockScalar) (column : Nat) : BlockScalar :=
  { block with widest := max block.widest column }

def settle (block : BlockScalar) : BlockScalar :=
  if block.indent == 0 then { block with indent := max (max block.widest block.least) 1 } else block

/-- Starts a line with its first character. Between two lines that start without a blank a
folded block turns a single line feed into a blank. -/
def startLine (block : BlockScalar) (c : Char) : BlockScalar :=
  let folds := !block.literal && block.lineBreak == ['\n'] && !block.startsBlank && !isSpace c
  let joint := if !folds then block.lineBreak else if block.emptyLines.isEmpty then [' '] else []
  { block with
    text := c :: (block.emptyLines ++ (joint ++ block.text))
    lineBreak := []
    emptyLines := []
    startsBlank := isSpace c }

def finish (block : BlockScalar) (rest : List Char) (mark : Mark) : Scanned :=
  let tail := match block.chomping with
    | .strip => []
    | .clip => block.lineBreak
    | .keep => block.emptyLines ++ block.lineBreak
  { text := String.ofList (tail ++ block.text).reverse, rest, mark, lineEnded := true }

/-- Reads the lines; `inLine` tells whether the current one has started. A tab cannot stand
for indentation. -/
def scan (inLine : Bool) (block : BlockScalar) : List Char → Mark → Option Scanned
  | [], mark => some (block.finish [] mark)
  | c :: rest, mark =>
    if inLine then
      if isBreak c then scan false { block with lineBreak := [c] } rest mark.newline
      else scan true { block with text := c :: block.text } rest mark.next
    else if c == ' ' && block.isBefore mark.column then scan false block rest mark.next
    else if c == '\t' && block.isBefore mark.column then none
    else
      let reached := block.reach mark.column
      if isBreak c then
        scan false { reached with emptyLines := c :: reached.emptyLines } rest mark.newline
      else
        let settled := reached.settle
        if mark.column == settled.indent then scan true (settled.startLine c) rest mark.next
        else some (settled.finish (c :: rest) mark)

def read (literal : Bool) (indent : Int) (chars : List Char) (mark : Mark) : Option Scanned := do
  let (chomping, increment, afterHeader) ← header? chars
  let lines := skipComment afterHeader
  let least := (indent + 1).toNat
  let block : BlockScalar :=
    { literal, chomping, least, indent := if increment == 0 then 0 else indent.toNat + increment }
  match lines with
  | [] => return block.finish [] (mark.advance chars.length)
  | c :: rest =>
    if isBreak c then scan false block rest (mark.advance (chars.length - lines.length)).newline
    else none

end BlockScalar
end CircuitRunner.Yaml
