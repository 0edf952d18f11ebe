import CircuitRunner.Yaml.BlockScalar
import CircuitRunner.Yaml.Tag

/-! Tokens of the settings language. Indentation becomes explicit block tokens, and a node
turns out to be a key when a colon follows it on its line. -/
namespace CircuitRunner.Yaml

inductive Token where
  | directive (content : Directive)
  | documentStart
  | documentEnd
  | blockSequenceStart
  | blockMappingStart
  | blockEnd
  | flowSequenceStart
  | flowSequenceEnd
  | flowMappingStart
  | flowMappingEnd
  | blockEntry
  | flowEntry
  | key
  | value
  | anchor (name : String)
  | alias (name : String)
  | tag (content : Tag)
  | scalar (style : ScalarStyle) (text : String)
  deriving DecidableEq, Repr

structure KeyStart where
  /-- The number of tokens before it. -/
  position : Nat
  /-- Whether the indentation leaves no other reading. -/
  required : Bool
  mark : Mark

structure Lexer where
  rest : List Char
  mark : Mark := {}
  tokens : List Token := []
  /-- Columns of the open blocks, innermost first. -/
  indents : List Nat := []
  /-- Whether a key may start here. -/
  keyAllowed : Bool := true
  /-- The possible key of the current level. -/
  keyStart : Option KeyStart := none
  /-- The possible keys of the levels around it; one level per open bracket. -/
  outerKeys : List (Option KeyStart) := []

namespace Lexer

def inFlow (lexer : Lexer) : Bool := !lexer.outerKeys.isEmpty

def indent (lexer : Lexer) : Int :=
  match lexer.indents with
  | [] => -1
  | column :: _ => column

def emit (lexer : Lexer) (token : Token) : Lexer := { lexer with tokens := lexer.tokens ++ [token] }

def moveTo (lexer : Lexer) (rest : List Char) : Lexer :=
  { lexer with rest, mark := lexer.mark.advance (lexer.rest.length - rest.length) }

def advance (lexer : Lexer) (count : Nat) : Lexer := lexer.moveTo (lexer.rest.drop count)

/-- Skips blanks, comments, line breaks, and a byte order mark at the start of a line. A new
line lets a key start. Tabs are skipped only where no key may start. -/
def skip (inFlow comment keyAllowed : Bool) : List Char → Mark → Bool × List Char × Mark
  | [], mark => (keyAllowed, [], mark)
  | c :: rest, mark =>
    if isBreak c then skip inFlow false (keyAllowed || !inFlow) rest mark.newline
    else if comment then skip inFlow true keyAllowed rest mark.next
    else if c == ' ' || (c == '\t' && (inFlow || !keyAllowed)) ||
        (isByteOrderMark c && mark.column == 0) then
      skip inFlow false keyAllowed rest mark.next
    else if c == '#' then skip inFlow true keyAllowed rest mark.next
    else (keyAllowed, c :: rest, mark)

def skipBlanks (lexer : Lexer) : Lexer :=
  let (keyAllowed, rest, mark) := skip lexer.inFlow false lexer.keyAllowed lexer.rest lexer.mark
  { lexer with keyAllowed, rest, mark }

/-- A key must have its colon on the same line, at most 1024 characters on. -/
def expire (lexer : Lexer) (keyStart : Option KeyStart) : Option (Option KeyStart) :=
  match keyStart with
  | none => some none
  | some start =>
    if start.mark.line < lexer.mark.line || start.mark.index + 1024 < lexer.mark.index then
      if start.required then none else some none
    else some (some start)

def expireKeys (lexer : Lexer) : Option Lexer := do
  let keyStart ← lexer.expire lexer.keyStart
  let outerKeys ← lexer.outerKeys.mapM lexer.expire
  return { lexer with keyStart, outerKeys }

def forgetKey (lexer : Lexer) : Option Lexer :=
  match lexer.keyStart with
  | some start => if start.required then none else some { lexer with keyStart := none }
  | none => some lexer

def noteKey (lexer : Lexer) : Option Lexer :=
  if lexer.keyAllowed then
    lexer.forgetKey.map fun lexer => { lexer with
      keyStart := some {
        position := lexer.tokens.length
        required := !lexer.inFlow && lexer.indent == lexer.mark.column
        mark := lexer.mark } }
  else some lexer

/-- Opens a block at a column, unless one is open there. Its token goes before the token at
`position`. -/
def openBlock (lexer : Lexer) (column position : Nat) (token : Token) : Lexer :=
  if lexer.inFlow || column ≤ lexer.indent then lexer
  else { lexer with
    indents := column :: lexer.indents
    tokens := lexer.tokens.take position ++ token :: lexer.tokens.drop position }

def closeBlocks (lexer : Lexer) (column : Int) : Lexer :=
  if lexer.inFlow then lexer
  else
    let closed := lexer.indents.takeWhile fun (start : Nat) => column < start
    { lexer with
      indents := lexer.indents.dropWhile fun (start : Nat) => column < start
      tokens := lexer.tokens ++ closed.map fun _ => .blockEnd }

def fetchDirective (lexer : Lexer) : Option Lexer := do
  let lexer ← (lexer.closeBlocks (-1)).forgetKey
  let (directive, rest) ← Directive.scan? (lexer.rest.drop 1)
  let read := ({ lexer with keyAllowed := false }.moveTo rest).emit (.directive directive)
  return match rest with
    | [] => read
    | _ :: rest => { read with rest, mark := read.mark.newline }

def fetchMarker (lexer : Lexer) (token : Token) : Option Lexer := do
  let lexer ← (lexer.closeBlocks (-1)).forgetKey
  return ({ lexer with keyAllowed := false }.advance 3).emit token

def fetchFlowStart (lexer : Lexer) (token : Token) : Option Lexer := do
  let lexer ← lexer.noteKey
  let opened := { lexer with
    outerKeys := lexer.keyStart :: lexer.outerKeys
    keyStart := none
    keyAllowed := true }
  return (opened.advance 1).emit token

def fetchFlowEnd (lexer : Lexer) (token : Token) : Option Lexer := do
  let lexer ← lexer.forgetKey
  let closed := match lexer.outerKeys with
    | [] => lexer
    | keyStart :: outerKeys => { lexer with keyStart, outerKeys }
  return ({ closed with keyAllowed := false }.advance 1).emit token

def fetchFlowEntry (lexer : Lexer) : Option Lexer := do
  let lexer ← lexer.forgetKey
  return ({ lexer with keyAllowed := true }.advance 1).emit .flowEntry

def fetchBlockEntry (lexer : Lexer) : Option Lexer :=
  if !lexer.inFlow && !lexer.keyAllowed then none
  else do
    let opened := lexer.openBlock lexer.mark.column lexer.tokens.length .blockSequenceStart
    let lexer ← opened.forgetKey
    return ({ lexer with keyAllowed := true }.advance 1).emit .blockEntry

def fetchKey (lexer : Lexer) : Option Lexer :=
  if !lexer.inFlow && !lexer.keyAllowed then none
  else do
    let opened := lexer.openBlock lexer.mark.column lexer.tokens.length .blockMappingStart
    let lexer ← opened.forgetKey
    return ({ lexer with keyAllowed := !lexer.inFlow }.advance 1).emit .key

/-- At a colon: the possible key becomes one, and may open a block mapping. -/
def fetchValue (lexer : Lexer) : Option Lexer :=
  match lexer.keyStart with
  | some start =>
    let position := start.position
    let keyed := { lexer with
      tokens := lexer.tokens.take position ++ Token.key :: lexer.tokens.drop position
      keyStart := none
      keyAllowed := false }
    some (((keyed.openBlock start.mark.column position .blockMappingStart).advance 1).emit .value)
  | none =>
    if lexer.inFlow then some (({ lexer with keyAllowed := false }.advance 1).emit .value)
    else if !lexer.keyAllowed then none
    else
      let opened := lexer.openBlock lexer.mark.column lexer.tokens.length .blockMappingStart
      some (({ opened with keyAllowed := true }.advance 1).emit .value)

def fetchName (lexer : Lexer) (token : String → Token) : Option Lexer := do
  let lexer ← lexer.noteKey
  let name := (lexer.rest.drop 1).takeWhile isWord
  let rest := (lexer.rest.drop 1).dropWhile isWord
  if name.isEmpty || !(endsWord rest || rest.head?.any ("?:,]\x7d%@\x60".toList.contains ·)) then none
  else return ({ lexer with keyAllowed := false }.moveTo rest).emit (token (String.ofList name))

def fetchTag (lexer : Lexer) : Option Lexer := do
  let lexer ← lexer.noteKey
  let (tag, rest) ← Tag.scan? lexer.inFlow lexer.rest
  return ({ lexer with keyAllowed := false }.moveTo rest).emit (.tag tag)

def accept (lexer : Lexer) (style : ScalarStyle) (scanned : Scanned) : Lexer :=
  { lexer with rest := scanned.rest, mark := scanned.mark, keyAllowed := scanned.lineEnded }.emit
    (.scalar style scanned.text)

def fetchBlockScalar (lexer : Lexer) (style : ScalarStyle) (rest : List Char) : Option Lexer := do
  let lexer ← lexer.forgetKey
  return lexer.accept style (← BlockScalar.read (style == .literal) lexer.indent rest lexer.mark.next)

def startsPlain (inFlow : Bool) (c : Char) (rest : List Char) : Bool :=
  !(isSpace c || "-?:,[]\x7b\x7d#&*!|>\x27\x22%@\x60".toList.contains c) ||
    (c == '-' && !(rest.head?.any isSpace)) ||
    (!inFlow && (c == '?' || c == ':') && !endsWord rest)

def fetch (lexer : Lexer) (c : Char) (rest : List Char) : Option Lexer :=
  if lexer.mark.column == 0 && c == '%' then lexer.fetchDirective
  else if atMarker '-' lexer.rest lexer.mark then lexer.fetchMarker .documentStart
  else if atMarker '.' lexer.rest lexer.mark then lexer.fetchMarker .documentEnd
  else if c == '[' then lexer.fetchFlowStart .flowSequenceStart
  else if c == '\x7b' then lexer.fetchFlowStart .flowMappingStart
  else if c == ']' then lexer.fetchFlowEnd .flowSequenceEnd
  else if c == '\x7d' then lexer.fetchFlowEnd .flowMappingEnd
  else if c == ',' then lexer.fetchFlowEntry
  else if c == '-' && endsWord rest then lexer.fetchBlockEntry
  else if c == '?' && (lexer.inFlow || endsWord rest) then lexer.fetchKey
  else if c == ':' && (lexer.inFlow || endsWord rest) then lexer.fetchValue
  else if c == '*' then lexer.fetchName .alias
  else if c == '&' then lexer.fetchName .anchor
  else if c == '!' then lexer.fetchTag
  else if c == '|' && !lexer.inFlow then lexer.fetchBlockScalar .literal rest
  else if c == '>' && !lexer.inFlow then lexer.fetchBlockScalar .folded rest
  else if c == '\x27' then do
    let lexer ← lexer.noteKey
    return lexer.accept .quoted (← scanSingle [] {} rest lexer.mark.next)
  else if c == '\x22' then do
    let lexer ← lexer.noteKey
    return lexer.accept .quoted (← scanDouble [] {} none rest lexer.mark.next)
  else if startsPlain lexer.inFlow c rest then do
    let lexer ← lexer.noteKey
    return lexer.accept .plain (← scanPlain lexer.inFlow (lexer.indent + 1) [] {} lexer.rest lexer.mark)
  else none

/-- Reads tokens to the end. Every step takes a character, so the length of the input bounds
their number. -/
def run : Nat → Lexer → Option (List Token)
  | 0, _ => none
  | fuel + 1, lexer => do
    let skipped := lexer.skipBlanks
    let lexer ← skipped.expireKeys
    match lexer.rest with
    | [] =>
      let lexer ← (lexer.closeBlocks (-1)).forgetKey
      return lexer.tokens
    | c :: rest => run fuel (← (lexer.closeBlocks lexer.mark.column).fetch c rest)

end Lexer

def tokenize (text : String) : Option (List Token) :=
  let chars := text.toList
  if chars.all isPrintable then
    let joined := joinBreaks chars
    Lexer.run (joined.length + 1) { rest := joined }
  else none

end CircuitRunner.Yaml
