import Mathlib
import CircuitRunner.Assignment
import CircuitRunner.Double
import CircuitRunner.Proofs.TableLookup

/-! What an assignment makes of a text. Every text is read in one way as minus signs with blanks between them, a
body without blanks at its ends, and blanks after it. The signs negate the value of the body, which is a number
literal, the name of a variable, or nothing. -/
namespace CircuitRunner

namespace Text

def Blank (chars : List Char) : Prop := ∀ c ∈ chars, isBlank c = true

structure Trimmed (chars : List Char) : Prop where
  front : ∀ c ∈ chars.head?, isBlank c = false
  back : ∀ c ∈ chars.getLast?, isBlank c = false

theorem dropWhile_of_front {chars : List Char} (front : ∀ c ∈ chars.head?, isBlank c = false) :
    chars.dropWhile isBlank = chars := by
  cases chars with
  | nil => rfl
  | cons c rest => rw [List.dropWhile_cons_of_neg (by simp [front c rfl])]

theorem front_dropWhile (chars : List Char) : ∀ c ∈ (chars.dropWhile isBlank).head?, isBlank c = false := by
  intro c first
  have stops := List.head?_dropWhile_not isBlank chars
  rwa [Option.mem_def.1 first] at stops

/-- What is left of a text once the blanks at its end are gone. -/
theorem trimEnd_padded {body trail : List Char} (back : ∀ c ∈ body.getLast?, isBlank c = false)
    (blank : Blank trail) : ((body ++ trail).reverse.dropWhile isBlank).reverse = body := by
  have reversed : ∀ c ∈ trail.reverse, isBlank c = true := fun c member => blank c (List.mem_reverse.1 member)
  rw [List.reverse_append, List.dropWhile_append_of_pos reversed, dropWhile_of_front, List.reverse_reverse]
  rwa [List.head?_reverse]

theorem trimChars_padded {lead body trail : List Char} (before : Blank lead) (trimmed : Trimmed body)
    (after : Blank trail) : trimChars (lead ++ body ++ trail) = body := by
  rw [trimChars, List.append_assoc, List.dropWhile_append_of_pos before]
  cases body with
  | nil =>
    rw [List.nil_append, List.dropWhile_eq_nil_iff.2 after]
    rfl
  | cons c rest =>
    have front : (c :: rest ++ trail).dropWhile isBlank = c :: rest ++ trail :=
      dropWhile_of_front fun first same => trimmed.front first same
    rw [front, trimEnd_padded trimmed.back after]

theorem exists_trimEnd (chars : List Char) : ∃ kept trail, chars = kept ++ trail ∧ Blank trail ∧
    ∀ c ∈ kept.getLast?, isBlank c = false := by
  refine ⟨(chars.reverse.dropWhile isBlank).reverse, (chars.reverse.takeWhile isBlank).reverse, ?_, ?_, ?_⟩
  · rw [← List.reverse_append, List.takeWhile_append_dropWhile, List.reverse_reverse]
  · exact fun _ member => List.mem_takeWhile_imp (List.mem_reverse.1 member)
  · intro c last
    rw [List.getLast?_reverse] at last
    exact front_dropWhile _ c last

theorem eq_nil_of_blank {chars : List Char} (blank : Blank chars)
    (back : ∀ c ∈ chars.getLast?, isBlank c = false) : chars = [] := by
  by_contra nonempty
  have last := List.getLast?_eq_some_getLast nonempty
  have stops := back _ last
  rw [blank _ (List.getLast_mem nonempty)] at stops
  cases stops

/-- Trimming takes blanks away, and no blank is left at either end. -/
theorem exists_padding (chars : List Char) : ∃ lead trail, Blank lead ∧ Blank trail ∧
    Trimmed (trimChars chars) ∧ chars = lead ++ trimChars chars ++ trail := by
  obtain ⟨kept, trail, split, after, back⟩ := exists_trimEnd (chars.dropWhile isBlank)
  have before : Blank (chars.takeWhile isBlank) := fun _ => List.mem_takeWhile_imp
  have front : ∀ c ∈ kept.head?, isBlank c = false := by
    intro c first
    refine front_dropWhile chars c ?_
    rw [split, List.head?_append, Option.mem_def.1 first]
    rfl
  have whole : chars = chars.takeWhile isBlank ++ kept ++ trail := by
    rw [List.append_assoc, ← split, List.takeWhile_append_dropWhile]
  have trimmed : trimChars chars = kept := by
    rw [whole, trimChars_padded before ⟨front, back⟩ after]
  exact ⟨_, trail, before, after, trimmed ▸ ⟨front, back⟩, trimmed ▸ whole⟩

theorem trimmed_iff {chars : List Char} : Trimmed chars ↔ trimChars chars = chars := by
  constructor
  · intro trimmed
    have blank : Blank [] := by simp [Blank]
    simpa using trimChars_padded blank trimmed blank
  · intro same
    obtain ⟨-, -, -, -, trimmed, -⟩ := exists_padding chars
    rwa [same] at trimmed

end Text

/-- A text taken apart: blanks before each minus sign, and a body that has no sign of its own between blanks. -/
structure Reading where
  gaps : List (List Char)
  lead : List Char
  body : List Char
  trail : List Char
  gaps_blank : ∀ gap ∈ gaps, Text.Blank gap
  lead_blank : Text.Blank lead
  trail_blank : Text.Blank trail
  trimmed : Text.Trimmed body
  unsigned : body.head? ≠ some '-'

namespace Reading

def signs (reading : Reading) : Nat := reading.gaps.length

def text (reading : Reading) : List Char :=
  reading.gaps.flatMap (· ++ ['-']) ++ (reading.lead ++ reading.body ++ reading.trail)

def negated (gap : List Char) (blank : Text.Blank gap) (reading : Reading) : Reading :=
  { reading with
    gaps := gap :: reading.gaps
    gaps_blank := List.forall_mem_cons.2 ⟨blank, reading.gaps_blank⟩ }

theorem text_negated (gap : List Char) (blank : Text.Blank gap) (reading : Reading) :
    (reading.negated gap blank).text = gap ++ '-' :: reading.text := by
  simp [text, negated]

/-- Every reading has no sign, or comes from one with a sign less. -/
theorem cases_signs (reading : Reading) :
    reading.gaps = [] ∨ ∃ gap blank, ∃ fewer : Reading, reading = fewer.negated gap blank := by
  obtain ⟨gaps, lead, body, trail, gaps_blank, lead_blank, trail_blank, trimmed, unsigned⟩ := reading
  cases gaps with
  | nil => exact .inl rfl
  | cons gap gaps =>
    obtain ⟨blank, gaps_blank⟩ := List.forall_mem_cons.1 gaps_blank
    exact .inr ⟨gap, blank,
      ⟨gaps, lead, body, trail, gaps_blank, lead_blank, trail_blank, trimmed, unsigned⟩, rfl⟩

theorem text_of_unsigned {reading : Reading} (noSign : reading.gaps = []) :
    reading.text = reading.lead ++ reading.body ++ reading.trail := by
  rw [text, noSign, List.flatMap_nil, List.nil_append]

theorem trimChars_of_unsigned {reading : Reading} (noSign : reading.gaps = []) :
    Text.trimChars reading.text = reading.body := by
  rw [text_of_unsigned noSign, Text.trimChars_padded reading.lead_blank reading.trimmed reading.trail_blank]

/-- Behind the first minus sign trimming takes blanks off the end only. -/
theorem trimChars_minus {gap : List Char} (blank : Text.Blank gap) (rest : List Char) :
    ∃ kept trail, rest = kept ++ trail ∧ Text.Blank trail ∧ (∀ c ∈ kept.getLast?, Text.isBlank c = false) ∧
      Text.trimChars (gap ++ '-' :: rest) = '-' :: kept := by
  obtain ⟨kept, trail, split, after, back⟩ := Text.exists_trimEnd rest
  have trimmed : Text.Trimmed ('-' :: kept) := by
    refine ⟨by simp; decide, fun c last => ?_⟩
    rw [List.getLast?_cons] at last
    cases found : kept.getLast? with
    | none =>
      obtain rfl : '-' = c := by simpa [found] using last
      decide
    | some final =>
      obtain rfl : final = c := by simpa [found] using last
      exact back final found
  refine ⟨kept, trail, split, after, back, ?_⟩
  have padded := Text.trimChars_padded blank trimmed after
  rwa [List.append_assoc, List.cons_append, ← split] at padded

theorem exists_of_text (text : List Char) : ∃ reading : Reading, reading.text = text := by
  induction size : text.length using Nat.strong_induction_on generalizing text with
  | _ length ih =>
    obtain ⟨lead, trail, before, after, trimmed, split⟩ := Text.exists_padding text
    by_cases signed : (Text.trimChars text).head? = some '-'
    · obtain ⟨rest, starts⟩ := List.head?_eq_some_iff.1 signed
      have behind : text = lead ++ '-' :: (rest ++ trail) := by simpa [starts] using split
      have shorter : (rest ++ trail).length < length := by
        rw [← size, behind]
        simp only [List.length_append, List.length_cons]
        omega
      obtain ⟨fewer, read⟩ := ih _ shorter (rest ++ trail) rfl
      exact ⟨fewer.negated lead before, by rw [text_negated, read, ← behind]⟩
    · exact ⟨⟨[], lead, Text.trimChars text, trail, by simp, before, after, trimmed, signed⟩, split.symm⟩

theorem text_ne_negated {reading : Reading} (noSign : reading.gaps = []) {gap : List Char} (blank : Text.Blank gap)
    (fewer : Reading) : reading.text ≠ (fewer.negated gap blank).text := by
  intro same
  obtain ⟨kept, -, -, -, -, starts⟩ := trimChars_minus blank fewer.text
  rw [← text_negated _ blank, ← same, trimChars_of_unsigned noSign] at starts
  exact reading.unsigned (by rw [starts]; rfl)

/-- The minus signs are those in front of the body, and the body is what stands between the blanks behind them. -/
theorem unique {first second : Reading} (same : first.text = second.text) :
    first.signs = second.signs ∧ first.body = second.body := by
  induction size : first.signs generalizing first second with
  | zero =>
    have noSign : first.gaps = [] := List.eq_nil_of_length_eq_zero size
    rcases second.cases_signs with noSign' | ⟨gap, blank, fewer, rfl⟩
    · refine ⟨by rw [signs, noSign']; rfl, ?_⟩
      rw [← trimChars_of_unsigned noSign, ← trimChars_of_unsigned noSign', same]
    · exact absurd same (text_ne_negated noSign blank fewer)
  | succ count ih =>
    rcases first.cases_signs with noSign | ⟨gap, blank, fewer, rfl⟩
    · rw [signs, noSign] at size
      cases size
    rcases second.cases_signs with noSign | ⟨gap', blank', fewer', rfl⟩
    · exact absurd same.symm (text_ne_negated noSign blank fewer)
    rw [text_negated, text_negated] at same
    have behind := congrArg (List.dropWhile Text.isBlank) same
    rw [List.dropWhile_append_of_pos blank, List.dropWhile_append_of_pos blank',
      List.dropWhile_cons_of_neg (by decide), List.dropWhile_cons_of_neg (by decide)] at behind
    obtain ⟨signsSame, bodySame⟩ := ih (List.cons.inj behind).2 (Nat.succ.inj size)
    exact ⟨congrArg Nat.succ signsSame, bodySame⟩

def widened (blanks : List Char) (blank : Text.Blank blanks) (reading : Reading) : Reading :=
  { reading with
    trail := reading.trail ++ blanks
    trail_blank := List.forall_mem_append.2 ⟨reading.trail_blank, blank⟩ }

theorem text_widened (blanks : List Char) (blank : Text.Blank blanks) (reading : Reading) :
    (reading.widened blanks blank).text = reading.text ++ blanks := by
  simp [text, widened]

theorem blank_of_empty {reading : Reading} (noSign : reading.gaps = []) (empty : reading.body = []) :
    Text.Blank reading.text := by
  rw [text_of_unsigned noSign, empty, List.append_nil]
  exact List.forall_mem_append.2 ⟨reading.lead_blank, reading.trail_blank⟩

end Reading

namespace Assignment
variable {R : Type}

theorem get?_insert (assignment : Assignment R) (name query : String) (value : R) :
    (assignment.insert name value).get? query = if query = name then some value else assignment.get? query :=
  Table.lookup_pair name query value assignment.entries

variable [Literal R]

def bodyValue (assignment : Assignment R) (expression : String) (body : List Char) : Except ResolutionError R :=
  match Literal.read (String.ofList body) with
  | some value => .ok value
  | none =>
    if body.isEmpty then .error (.emptyExpression expression)
    else match assignment.get? (String.ofList body) with
      | some value => .ok value
      | none => .error (.unknownSymbol (String.ofList body))

theorem bodyValue_congr (assignment : Assignment R) {body : List Char} (nonempty : body ≠ [])
    (first second : String) :
    assignment.bodyValue first body = assignment.bodyValue second body := by
  simp [bodyValue, nonempty]

/-- A variable shows only where its own name is the body and no literal. -/
theorem bodyValue_insert (assignment : Assignment R) {name : String} {body : List Char}
    (other : body = name.toList → body = [] ∨ Literal.read (String.ofList body) ≠ (none : Option R))
    (value : R) (expression : String) :
    (assignment.insert name value).bodyValue expression body = assignment.bodyValue expression body := by
  unfold bodyValue
  cases literal : (Literal.read (String.ofList body) : Option R) with
  | some number => rfl
  | none =>
    by_cases empty : body = []
    · simp [empty]
    · have different : String.ofList body ≠ name := by
        rintro rfl
        rcases other (by simp) with nothing | number
        · exact empty nothing
        · exact number literal
      simp [get?_insert, different]

variable [Neg R]

theorem resolveChars_signed (assignment : Assignment R) {expression rest : List Char}
    (starts : Text.trimChars expression = '-' :: rest) :
    assignment.resolveChars expression = (assignment.resolveChars rest).map (- ·) := by
  rw [resolveChars]
  split
  · rename_i other trimmed
    rw [starts] at trimmed
    rw [(List.cons.inj trimmed).2]
  · rename_i unsigned
    exact absurd starts (unsigned rest)

theorem resolveChars_unsigned (assignment : Assignment R) {expression : List Char}
    (unsigned : (Text.trimChars expression).head? ≠ some '-') :
    assignment.resolveChars expression =
      assignment.bodyValue (String.ofList expression) (Text.trimChars expression) := by
  rw [resolveChars]
  split
  · rename_i rest trimmed
    exact absurd (by rw [trimmed]; rfl) unsigned
  · rfl

/-- The signs negate the value of the body. Trimming takes the blanks at the end away before the first sign is
read, so that none are left to report where nothing stands behind it. -/
theorem resolveChars_text (assignment : Assignment R) (reading : Reading) :
    assignment.resolveChars reading.text = (Except.map (- ·))^[reading.signs]
      (assignment.bodyValue (if reading.signs = 0 then String.ofList reading.text else "") reading.body) := by
  induction size : reading.signs generalizing reading with
  | zero =>
    have noSign : reading.gaps = [] := List.eq_nil_of_length_eq_zero size
    have trimmed := Reading.trimChars_of_unsigned noSign
    rw [assignment.resolveChars_unsigned (by rw [trimmed]; exact reading.unsigned), trimmed]
    rfl
  | succ count ih =>
    rcases reading.cases_signs with noSign | ⟨gap, blank, fewer, rfl⟩
    · rw [Reading.signs, noSign] at size
      cases size
    obtain ⟨kept, trail, split, after, back, starts⟩ := Reading.trimChars_minus blank fewer.text
    obtain ⟨trimmed, rfl⟩ := Reading.exists_of_text kept
    rw [← trimmed.text_widened trail after] at split
    obtain ⟨signsSame, bodySame⟩ := Reading.unique split
    have fewerSigns : trimmed.signs = count := signsSame.symm.trans (Nat.succ.inj size)
    have reported : assignment.bodyValue (if count = 0 then String.ofList trimmed.text else "") trimmed.body =
        assignment.bodyValue "" trimmed.body := by
      by_cases empty : trimmed.body = []
      · split
        · rename_i zero
          have noSign : trimmed.gaps = [] := List.eq_nil_of_length_eq_zero (fewerSigns.trans zero)
          rw [Text.eq_nil_of_blank (Reading.blank_of_empty noSign empty) back]
        · rfl
      · exact assignment.bodyValue_congr empty _ _
    rw [Reading.text_negated, assignment.resolveChars_signed starts, ih trimmed fewerSigns, reported,
      Function.iterate_succ_apply', if_neg (Nat.succ_ne_zero count)]
    exact congrArg (fun body => ((Except.map (- ·))^[count] (assignment.bodyValue "" body)).map (- ·)) bodySame.symm

omit [Literal R] in
theorem iterate_map_ok (signs : Nat) (value : R) :
    (Except.map (- ·))^[signs] (.ok value : Except ResolutionError R) = .ok ((- ·)^[signs] value) := by
  have commutes : Function.Semiconj Except.ok (- · : R → R) (Except.map (- ·) : Except ResolutionError R → _) :=
    fun _ => rfl
  exact (commutes.iterate_right signs value).symm

omit [Literal R] in
theorem iterate_map_error (signs : Nat) (error : ResolutionError) :
    (Except.map (- ·))^[signs] (.error error : Except ResolutionError R) = .error error :=
  Function.iterate_fixed rfl signs

theorem resolve_reading (assignment : Assignment R) {expression : String} {reading : Reading}
    (read : reading.text = expression.toList) :
    assignment.resolve expression = (Except.map (- ·))^[reading.signs]
      (assignment.bodyValue (if reading.signs = 0 then expression else "") reading.body) := by
  rw [resolve, ← read, resolveChars_text, read, String.ofList_toList]

/-- A variable that its bare name gives the value of, whatever else is assigned. -/
def Reachable (R : Type) [Literal R] [Neg R] (name : String) : Prop :=
  ∀ (assignment : Assignment R) (value : R), (assignment.insert name value).resolve name = .ok value

/-- A name that is read as itself: not empty, without blanks around it or a sign in front, and no literal. -/
structure BareName (R : Type) [Literal R] (name : String) : Prop where
  nonempty : name ≠ ""
  trimmed : Text.Trimmed name.toList
  unsigned : name.toList.head? ≠ some '-'
  nonliteral : (Literal.read name : Option R) = none

theorem BareName.resolve {name : String} (bare : BareName R name) (assignment : Assignment R) :
    assignment.resolve name = (assignment.get? name).elim (.error (.unknownSymbol name)) .ok := by
  have blank : Text.Blank [] := by simp [Text.Blank]
  let reading : Reading := ⟨[], [], name.toList, [], by simp, blank, blank, bare.trimmed, bare.unsigned⟩
  have read : reading.text = name.toList := by simp [reading, Reading.text]
  rw [resolve_reading _ read]
  simp only [reading, Reading.signs, List.length_nil, Function.iterate_zero, id, bodyValue, String.ofList_toList,
    bare.nonliteral, List.isEmpty_iff, String.toList_eq_nil_iff, bare.nonempty, if_false]
  cases assignment.get? name <;> rfl

theorem BareName.reachable {name : String} (bare : BareName R name) : Reachable R name := by
  intro assignment value
  rw [bare.resolve, get?_insert, if_pos rfl]
  rfl

/-- The value of a variable whose name is not read as itself does not matter. -/
theorem resolve_insert_of_not_bareName {name : String} (other : ¬BareName R name) (assignment : Assignment R)
    (value : R) : (assignment.insert name value).resolve name = assignment.resolve name := by
  obtain ⟨reading, read⟩ := Reading.exists_of_text name.toList
  rw [resolve_reading _ read, resolve_reading _ read, bodyValue_insert]
  intro whole
  by_contra consulted
  obtain ⟨nonempty, nonliteral⟩ := not_or.1 consulted
  rw [whole, String.ofList_toList, ne_eq, not_not] at nonliteral
  rw [whole] at nonempty
  exact other ⟨by simpa using nonempty, whole ▸ reading.trimmed, whole ▸ reading.unsigned, nonliteral⟩

theorem reachable_iff [Nontrivial R] {name : String} : Reachable R name ↔ BareName R name := by
  constructor
  · intro reachable
    by_contra other
    obtain ⟨first, second, different⟩ := exists_pair_ne R
    have ignored := resolve_insert_of_not_bareName other (empty : Assignment R)
    have same := (reachable empty first).symm.trans ((ignored first).trans (ignored second).symm)
    exact different (Except.ok.inj (same.trans (reachable empty second)))
  · exact BareName.reachable

theorem read_empty : (Literal.read (String.ofList []) : Option Float) = none := rfl

/-- Every expression is read in one way, and what it resolves to is decided by its body: a literal comes before a
variable, a name that is not assigned is reported, and so is an expression without a body. The variables that can
be asked for are those whose names are read as themselves. -/
theorem resolve_signed_body :
    (∀ (assignment : Assignment Float) (expression : String), ∃ reading : Reading,
      reading.text = expression.toList ∧
      (∀ other : Reading, other.text = expression.toList →
        other.signs = reading.signs ∧ other.body = reading.body) ∧
      let body := String.ofList reading.body
      (∀ value, Literal.read body = some value →
        assignment.resolve expression = .ok ((- ·)^[reading.signs] value)) ∧
      (∀ value, (Literal.read body : Option Float) = none → body ≠ "" → assignment.get? body = some value →
        assignment.resolve expression = .ok ((- ·)^[reading.signs] value)) ∧
      ((Literal.read body : Option Float) = none → body ≠ "" → assignment.get? body = none →
        assignment.resolve expression = .error (.unknownSymbol body)) ∧
      (body = "" → assignment.resolve expression =
        .error (.emptyExpression (if reading.signs = 0 then expression else "")))) ∧
    (∀ name : String, (Reachable Float name ↔ BareName Float name) ∧
      (¬Reachable Float name → ∀ (assignment : Assignment Float) (value : Float),
        (assignment.insert name value).resolve name = assignment.resolve name)) ∧
    ¬Reachable Float "inf" ∧ ¬Reachable Float "nan" := by
  have nontrivial : Nontrivial Float := ⟨0, 1, by decide +kernel⟩
  refine ⟨?_, ?_, ?_⟩
  · intro assignment expression
    obtain ⟨reading, read⟩ := Reading.exists_of_text expression.toList
    refine ⟨reading, read, fun other same => Reading.unique (same.trans read.symm), ?_, ?_, ?_, ?_⟩
    · intro value literal
      rw [resolve_reading assignment read, bodyValue, literal]
      exact iterate_map_ok _ _
    · intro value nonliteral nonempty known
      have body : assignment.bodyValue (if reading.signs = 0 then expression else "") reading.body = .ok value := by
        simp [bodyValue, nonliteral, known, show reading.body ≠ [] by simpa using nonempty]
      rw [resolve_reading assignment read, body, iterate_map_ok]
    · intro nonliteral nonempty unknown
      have body : assignment.bodyValue (if reading.signs = 0 then expression else "") reading.body =
          .error (.unknownSymbol (String.ofList reading.body)) := by
        simp [bodyValue, nonliteral, unknown, show reading.body ≠ [] by simpa using nonempty]
      rw [resolve_reading assignment read, body, iterate_map_error]
    · intro nothing
      have empty : reading.body = [] := by simpa using nothing
      rw [resolve_reading assignment read, empty, bodyValue, read_empty]
      exact iterate_map_error _ _
  · intro name
    rw [reachable_iff]
    exact ⟨Iff.rfl, resolve_insert_of_not_bareName⟩
  · rw [reachable_iff, reachable_iff]
    refine ⟨fun bare => ?_, fun bare => ?_⟩
    · cases bare.nonliteral
    · cases bare.nonliteral

/-- Blanks may stand around a sign and its numeral. -/
example : ((Assignment.empty : Assignment Float).resolve "2.5").toOption = some 2.5 ∧
    ((Assignment.empty : Assignment Float).resolve " - 3 ").toOption = some (-3) := by
  decide +kernel

end Assignment
end CircuitRunner
