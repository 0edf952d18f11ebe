/-! Characters of the settings language, and positions in a document. -/
namespace CircuitRunner.Yaml

structure Mark where
  index : Nat := 0
  line : Nat := 0
  column : Nat := 0

namespace Mark

def advance (mark : Mark) (count : Nat) : Mark :=
  { mark with index := mark.index + count, column := mark.column + count }

def next (mark : Mark) : Mark := mark.advance 1

def newline (mark : Mark) : Mark :=
  { index := mark.index + 1, line := mark.line + 1, column := 0 }

end Mark

def isSpace (c : Char) : Bool := c == ' ' || c == '\t'

/-- Line breaks, once `joinBreaks` has unified the common spellings. -/
def isBreak (c : Char) : Bool := c == '\n' || c == '\u2028' || c == '\u2029'

def isWord (c : Char) : Bool := c.isAlphanum || c == '_' || c == '-'

def isByteOrderMark (c : Char) : Bool := c == '\ufeff'

def endsWord : List Char → Bool
  | [] => true
  | c :: _ => isSpace c || isBreak c

def endsLine : List Char → Bool
  | [] => true
  | c :: _ => isBreak c

def isPrintable (c : Char) : Bool :=
  let n := c.toNat
  n == 0x09 || n == 0x0A || n == 0x0D || (0x20 ≤ n && n ≤ 0x7E) || n == 0x85 ||
    (0xA0 ≤ n && n ≤ 0xD7FF) || (0xE000 ≤ n && n ≤ 0xFFFD) || 0x10000 ≤ n

/-- Writes a carriage return, with or without a line feed, and the control code for a next
line as a line feed. -/
def joinBreaks : List Char → List Char
  | [] => []
  | '\r' :: '\n' :: rest => '\n' :: joinBreaks rest
  | c :: rest => (if c == '\r' || c == '\u0085' then '\n' else c) :: joinBreaks rest

def hexDigit? (c : Char) : Option Nat :=
  if '0' ≤ c && c ≤ '9' then some (c.toNat - '0'.toNat)
  else if 'a' ≤ c && c ≤ 'f' then some (c.toNat - 'a'.toNat + 10)
  else if 'A' ≤ c && c ≤ 'F' then some (c.toNat - 'A'.toNat + 10)
  else none

def atMarker (marker : Char) (chars : List Char) (mark : Mark) : Bool :=
  mark.column == 0 && chars.take 3 == [marker, marker, marker] && endsWord (chars.drop 3)

def atDocumentMarker (chars : List Char) (mark : Mark) : Bool :=
  atMarker '-' chars mark || atMarker '.' chars mark

def skipComment (chars : List Char) : List Char :=
  match chars.dropWhile isSpace with
  | '#' :: rest => rest.dropWhile fun c => !isBreak c
  | rest => rest

end CircuitRunner.Yaml
