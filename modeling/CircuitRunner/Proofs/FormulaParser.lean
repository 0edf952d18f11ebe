import Mathlib
import CircuitRunner.Decimal.Numeral
import CircuitRunner.Text.Blank

/-! Arithmetic formulas and a parser for them: words and signs are told apart first, then a stack of pending
operations is kept. Products bind more strongly than sums, a minus sign in front of an operand most strongly, and
operations of one level are taken from the left. -/
namespace CircuitRunner

inductive Arithmetic where
  | add
  | sub
  | mul
  | div
  deriving DecidableEq, Repr

namespace Arithmetic

def sign : Arithmetic → Char
  | .add => '+'
  | .sub => '-'
  | .mul => '*'
  | .div => '/'

def level : Arithmetic → Nat
  | .add | .sub => 1
  | .mul | .div => 2

def apply {α : Type} [Add α] [Sub α] [Mul α] [Div α] : Arithmetic → α → α → α
  | .add => (· + ·)
  | .sub => (· - ·)
  | .mul => (· * ·)
  | .div => (· / ·)

end Arithmetic

inductive Formula where
  | number (digits : List Char)
  | name (letters : List Char)
  | negation (operand : Formula)
  | binary (operation : Arithmetic) (left right : Formula)
  deriving DecidableEq, Repr

namespace Formula

/-- Every character that has no other part in a formula is a letter. -/
def isLetter (c : Char) : Bool :=
  !(Text.isBlank c || Decimal.isDigit c || ['(', ')', '+', '-', '*', '/', '.', '_'].contains c)

def isIdentifier : List Char → Bool
  | [] => false
  | first :: rest => isLetter first && rest.all fun c => isLetter c || Decimal.isDigit c || c == '_'

def isNumeral (chars : List Char) : Bool :=
  !chars.isEmpty && chars.all fun c => Decimal.isDigit c || c == '.'

def isWordChar (c : Char) : Bool := isLetter c || Decimal.isDigit c || c == '_' || c == '.'

inductive Token where
  | word (chars : List Char)
  | opening
  | closing
  | sign (operation : Arithmetic)
  deriving DecidableEq, Repr

def Token.ofRun : List Char → Token
  | ['('] => .opening
  | [')'] => .closing
  | ['+'] => .sign .add
  | ['-'] => .sign .sub
  | ['*'] => .sign .mul
  | ['/'] => .sign .div
  | run => .word run

/-- The longest runs of word characters, and all other characters one by one, without the blanks. -/
def tokens (chars : List Char) : List Token :=
  ((chars.splitBy fun c d => isWordChar c && isWordChar d).filter fun run => !run.all Text.isBlank).map Token.ofRun

inductive Pending where
  | bracket
  | negation
  | binary (operation : Arithmetic) (left : Formula)
  deriving DecidableEq, Repr

structure Progress where
  pending : List Pending
  operand : Option Formula
  deriving DecidableEq, Repr

/-- A complete operand takes the minus signs in front of it. -/
def complete : List Pending → Formula → Progress
  | .negation :: pending, operand => complete pending (.negation operand)
  | pending, operand => ⟨pending, some operand⟩

/-- Carries out the pending operations that bind at least as strongly as the given level. -/
def reduce (level : Nat) : List Pending → Formula → List Pending × Formula
  | .binary operation left :: pending, right =>
    if level ≤ operation.level then reduce level pending (.binary operation left right)
    else (.binary operation left :: pending, right)
  | pending, operand => (pending, operand)

def leaf? (chars : List Char) : Option Formula :=
  if isNumeral chars then some (.number chars)
  else if isIdentifier chars then some (.name chars)
  else none

def step (progress : Progress) (token : Token) : Option Progress :=
  match progress.operand, token with
  | none, .word chars => (leaf? chars).map (complete progress.pending)
  | none, .opening => some ⟨.bracket :: progress.pending, none⟩
  | none, .sign .sub => some ⟨.negation :: progress.pending, none⟩
  | some operand, .sign operation =>
    let (pending, left) := reduce operation.level progress.pending operand
    some ⟨.binary operation left :: pending, none⟩
  | some operand, .closing =>
    match reduce 0 progress.pending operand with
    | (.bracket :: pending, operand) => some (complete pending operand)
    | _ => none
  | _, _ => none

def Progress.formula? (progress : Progress) : Option Formula :=
  match progress.operand with
  | none => none
  | some operand =>
    match reduce 0 progress.pending operand with
    | ([], formula) => some formula
    | _ => none

def parse (chars : List Char) : Option Formula :=
  ((tokens chars).foldlM step ⟨[], none⟩).bind Progress.formula?

theorem tokens_append {first second : List Char}
    (apart : ∀ c ∈ first.getLast?, ∀ d ∈ second.head?, (isWordChar c && isWordChar d) = false) :
    tokens (first ++ second) = tokens first ++ tokens second := by
  rw [tokens, List.splitBy_append apart, List.filter_append, List.map_append, ← tokens, ← tokens]

/-- A character that is in no word stands for itself, whatever is around it. -/
theorem tokens_separator {c : Char} (separates : isWordChar c = false) (before after : List Char) :
    tokens (before ++ c :: after) = tokens before ++ (tokens [c] ++ tokens after) := by
  rw [tokens_append (by simp [separates]), ← List.singleton_append, tokens_append (by simp [separates])]

theorem tokens_cons {c : Char} (separates : isWordChar c = false) (after : List Char) :
    tokens (c :: after) = tokens [c] ++ tokens after :=
  tokens_separator separates [] after

theorem tokens_sign (operation : Arithmetic) : tokens [operation.sign] = [.sign operation] := by
  cases operation <;> rfl

theorem isWordChar_sign (operation : Arithmetic) : isWordChar operation.sign = false := by
  cases operation <;> rfl

theorem ofRun_word {c : Char} (isWord : isWordChar c = true) (rest : List Char) :
    Token.ofRun (c :: rest) = .word (c :: rest) := by
  unfold Token.ofRun
  split
  case h_7 => rfl
  all_goals
    rename_i same
    cases same
    cases isWord

theorem isBlank_eq_false_of_isDigit {c : Char} (digit : Decimal.isDigit c = true) : Text.isBlank c = false := by
  obtain ⟨above, below⟩ : 48 ≤ c.toNat ∧ c.toNat ≤ 57 := by
    simpa [Decimal.isDigit, Char.le_def, UInt32.le_iff_toNat_le] using digit
  simp [Text.isBlank, Text.blankRanges]
  omega

theorem isDigit_eq_false_of_isLetter {c : Char} (letter : isLetter c = true) : Decimal.isDigit c = false := by
  simp only [isLetter, Bool.not_eq_true', Bool.or_eq_false_iff] at letter
  exact letter.1.2

theorem ne_point_of_isLetter {c : Char} (letter : isLetter c = true) : c ≠ '.' := by
  rintro rfl
  cases letter

theorem isBlank_eq_false_of_isWordChar {c : Char} (isWord : isWordChar c = true) : Text.isBlank c = false := by
  simp only [isWordChar, isLetter, Bool.or_eq_true, beq_iff_eq] at isWord
  rcases isWord with ((letter | digit) | rfl) | rfl
  · simp only [Bool.not_eq_true', Bool.or_eq_false_iff] at letter
    exact letter.1.1
  · exact isBlank_eq_false_of_isDigit digit
  · rfl
  · rfl

theorem tokens_word {chars : List Char} (nonempty : chars ≠ []) (isWord : ∀ c ∈ chars, isWordChar c = true) :
    tokens chars = [.word chars] := by
  have chain : chars.IsChain fun c d => (isWordChar c && isWordChar d) = true := by
    refine List.Pairwise.isChain (List.pairwise_of_forall_mem_list ?_)
    intro c member d member'
    rw [isWord c member, isWord d member']
    rfl
  obtain ⟨first, rest, rfl⟩ := List.exists_cons_of_ne_nil nonempty
  have visible : Text.isBlank first = false := isBlank_eq_false_of_isWordChar (isWord first List.mem_cons_self)
  rw [tokens, List.splitBy_of_isChain nonempty chain]
  simp [visible, ofRun_word (isWord first List.mem_cons_self)]

/-- Texts that are read as an operand, whatever is pending before them. -/
def Reads (chars : List Char) (formula : Formula) : Prop :=
  ∀ pending, (tokens chars).foldlM step ⟨pending, none⟩ = some (complete pending formula)

namespace Reads
variable {chars chars' : List Char} {formula formula' : Formula}

theorem parse (reads : Reads chars formula) : Formula.parse chars = some formula := by
  rw [Formula.parse, reads []]
  rfl

theorem word (nonempty : chars ≠ []) (isWord : ∀ c ∈ chars, isWordChar c = true)
    (leaf : leaf? chars = some formula) : Reads chars formula := by
  intro pending
  have next : step ⟨pending, none⟩ (.word chars) = some (complete pending formula) := by
    change (leaf? chars).map (complete pending) = _
    rw [leaf, Option.map_some]
  rw [tokens_word nonempty isWord, List.foldlM_cons, next]
  rfl

theorem number (numeral : isNumeral chars = true) : Reads chars (.number chars) := by
  have isNumber : leaf? chars = some (.number chars) := by rw [leaf?, if_pos numeral]
  simp only [isNumeral, Bool.and_eq_true, Bool.not_eq_true', List.isEmpty_eq_false_iff,
    List.all_eq_true] at numeral
  refine word numeral.1 (fun c member => ?_) isNumber
  rcases Bool.or_eq_true_iff.1 (numeral.2 c member) with digit | point
  · simp [isWordChar, digit]
  · simp [isWordChar, point]

theorem name (identifier : isIdentifier chars = true) : Reads chars (.name chars) := by
  obtain _ | ⟨first, rest⟩ := chars
  · cases identifier
  obtain ⟨letter, others⟩ := Bool.and_eq_true_iff.1 identifier
  have notNumeral : isNumeral (first :: rest) = false := by
    simp [isNumeral, isDigit_eq_false_of_isLetter letter, ne_point_of_isLetter letter]
  have isName : leaf? (first :: rest) = some (.name (first :: rest)) := by
    rw [leaf?, notNumeral, if_neg Bool.false_ne_true, if_pos identifier]
  refine word (List.cons_ne_nil _ _) (fun c member => ?_) isName
  rcases List.mem_cons.1 member with rfl | member
  · simp [isWordChar, letter]
  · simp only [isWordChar, List.all_eq_true.1 others c member, Bool.true_or]

theorem minus (reads : Reads chars formula) : Reads ('-' :: chars) (.negation formula) := by
  intro pending
  rw [tokens_cons rfl]
  exact reads (.negation :: pending)

theorem bracket (reads : Reads chars formula) : Reads ('(' :: (chars ++ [')'])) formula := by
  intro pending
  rw [tokens_cons rfl, tokens_separator rfl]
  change (tokens chars ++ [Token.closing]).foldlM step ⟨.bracket :: pending, none⟩ = _
  rw [List.foldlM_append, reads (.bracket :: pending)]
  rfl

theorem binary (reads : Reads chars formula) (reads' : Reads chars' formula') (operation : Arithmetic) :
    Reads ('(' :: (chars ++ ' ' :: operation.sign :: ' ' :: (chars' ++ [')'])))
      (.binary operation formula formula') := by
  intro pending
  have split : tokens ('(' :: (chars ++ ' ' :: operation.sign :: ' ' :: (chars' ++ [')']))) =
      Token.opening :: (tokens chars ++ Token.sign operation :: (tokens chars' ++ [Token.closing])) := by
    rw [tokens_cons rfl, tokens_separator rfl chars, tokens_cons (isWordChar_sign operation), tokens_sign,
      tokens_cons rfl (chars' ++ _), tokens_separator rfl chars']
    rfl
  rw [split]
  change (tokens chars ++ Token.sign operation :: (tokens chars' ++ [Token.closing])).foldlM step
    ⟨.bracket :: pending, none⟩ = _
  rw [List.foldlM_append, reads (.bracket :: pending)]
  -- The left operand waits with its operation while the right one is read, and the bracket closes both.
  change (tokens chars' ++ [Token.closing]).foldlM step ⟨.binary operation formula :: .bracket :: pending, none⟩ = _
  rw [List.foldlM_append, reads' (.binary operation formula :: .bracket :: pending)]
  rfl

end Reads

example : parse "a - 2 * (-b) / c1".toList = some (.binary .sub (.name ['a'])
    (.binary .div (.binary .mul (.number ['2']) (.negation (.name ['b']))) (.name ['c', '1']))) := by
  decide

end Formula
end CircuitRunner
