import CircuitRunner.Lowering
import CircuitRunner.Proofs.SignedExpression
import CircuitRunner.Proofs.SucceedsWith

/-! Negated parameters under an assignment. A literal is negated as a number. A symbol is negated in writing,
between brackets, and an assignment takes what is written so for a name. -/
namespace CircuitRunner

/-- No number literal begins with a bracket. -/
theorem Decimal.Numeral.parse_bracket (rest : List Char) : Numeral.parse ('(' :: rest) = none := by
  have lowered (word : String) (other : word.toList.head? ≠ some '(') :
      String.ofList (('(' :: rest).map Char.toLower) ≠ word := by
    rintro rfl
    exact other (by rw [String.toList_ofList]; rfl)
  have sign : splitSign ('(' :: rest) = (false, '(' :: rest) := rfl
  rw [Numeral.parse, sign]
  dsimp only
  split
  · exact absurd ‹_› (lowered _ (by decide))
  · exact absurd ‹_› (lowered _ (by decide))
  · exact absurd ‹_› (lowered _ (by decide))
  · rfl

def negationText (expression : String) : String := s!"(-{expression})"

theorem toList_negationText (expression : String) :
    (negationText expression).toList = '(' :: '-' :: (expression.toList ++ [')']) := by
  simp [negationText, toString]

theorem bareName_negationText (expression : String) : Assignment.BareName Float (negationText expression) where
  nonempty := by
    intro empty
    have nothing := toList_negationText expression
    rw [empty] at nothing
    cases nothing
  trimmed := by
    rw [toList_negationText]
    refine ⟨by simp; decide, ?_⟩
    rw [← List.cons_append, ← List.cons_append, List.getLast?_concat]
    simp; decide
  unsigned := by
    rw [toList_negationText]
    simp
  nonliteral := by
    change (Decimal.Numeral.parse (negationText expression).toList).map Double.ofNumeral = none
    rw [toList_negationText, Decimal.Numeral.parse_bracket]
    rfl

/-- A minus sign in front of an expression negates its value. -/
theorem Assignment.resolve_minus {assignment : Assignment Float} {expression : String} {value : Float}
    (resolved : assignment.resolve expression = .ok value) : assignment.resolve ("-" ++ expression) = .ok (-value) := by
  obtain ⟨reading, read⟩ := Reading.exists_of_text expression.toList
  have blank : Text.Blank [] := by simp [Text.Blank]
  have signed : (reading.negated [] blank).text = ("-" ++ expression).toList := by
    rw [Reading.text_negated, read, String.toList_append]
    rfl
  rw [resolve_reading assignment read] at resolved
  have nonempty : reading.body ≠ [] := by
    intro empty
    rw [empty, bodyValue, read_empty] at resolved
    cases (iterate_map_error _ _).symm.trans resolved
  rw [resolve_reading assignment signed]
  change (Except.map (- ·))^[reading.signs + 1] (assignment.bodyValue _ reading.body) = _
  rw [assignment.bodyValue_congr nonempty _ (if reading.signs = 0 then expression else ""),
    Function.iterate_succ_apply', resolved]
  rfl

namespace Parameter

theorem resolve_neg_symbol (assignment : Assignment Float) (expression : String) :
    (-(symbol expression)).resolve (some assignment.resolve) =
      (assignment.get? (negationText expression)).elim
        (.error (.resolution (.unknownSymbol (negationText expression)))) .ok := by
  change (assignment.resolve (negationText expression)).mapError LoweringError.resolution = _
  rw [(bareName_negationText expression).resolve]
  cases assignment.get? (negationText expression) <;> rfl

/-- A resolved literal is negated with its value. A resolved symbol is negated to a name, which has the value that
is assigned to it under that name, or none. It is a minus sign in front of the symbol that negates its value. -/
theorem resolve_neg {assignment : Assignment Float} {parameter : Parameter Float} {value : Float}
    (resolved : parameter.resolve (some assignment.resolve) = .ok value) :
    (parameter.isLiteral = true → (-parameter).resolve (some assignment.resolve) = .ok (-value)) ∧
    ∀ expression, parameter = .symbol expression →
      let name := s!"(-{expression})"
      (-parameter) = .symbol name ∧
      (∀ other, (-parameter).resolve (some assignment.resolve) = .ok other ↔ assignment.get? name = some other) ∧
      ((-parameter).resolve (some assignment.resolve) = .error (.resolution (.unknownSymbol name)) ↔
        assignment.get? name = none) ∧
      (symbol s!"-{expression}").resolve (some assignment.resolve) = .ok (-value) := by
  cases parameter with
  | literal number =>
    cases resolved
    refine ⟨fun _ => rfl, ?_⟩
    intro expression same
    cases same
  | symbol expression =>
    refine ⟨fun literal => absurd literal (by simp [isLiteral]), ?_⟩
    intro expression same name
    cases same
    have named : (-(symbol expression)).resolve (some assignment.resolve) =
        (assignment.get? name).elim (.error (.resolution (.unknownSymbol name))) .ok :=
      resolve_neg_symbol assignment expression
    have negated := Assignment.resolve_minus (ok_of_mapError resolved)
    refine ⟨rfl, ?_, ?_, congrArg (Except.mapError LoweringError.resolution) negated⟩
    · intro other
      rw [named]
      cases assignment.get? name <;> simp
    · rw [named]
      cases assignment.get? name <;> simp

theorem bareName_theta : Assignment.BareName Float "theta" where
  nonempty := by decide
  trimmed := Text.trimmed_iff.2 (by decide)
  unsigned := by decide
  nonliteral := rfl

theorem resolve_neg_assigned :
    let assignment : Assignment Float := ⟨[("(-theta)", 4.0), ("theta", 1.5)]⟩
    (symbol "theta").resolve (some assignment.resolve) = .ok 1.5 ∧
      (-(symbol "theta")).resolve (some assignment.resolve) = .ok 4.0 ∧
      (symbol "-theta").resolve (some assignment.resolve) = .ok (-1.5) := by
  intro assignment
  have resolved : (symbol "theta").resolve (some assignment.resolve) = .ok 1.5 := by
    rw [Parameter.resolve, bareName_theta.resolve]
    rfl
  obtain ⟨-, named, -, negated⟩ := (resolve_neg resolved).2 "theta" rfl
  exact ⟨resolved, (named 4.0).2 rfl, negated⟩

/-- A symbol has a value, and its negation has none. -/
theorem resolve_neg_unassigned :
    let assignment : Assignment Float := ⟨[("theta", 1.5)]⟩
    (symbol "theta").resolve (some assignment.resolve) = .ok 1.5 ∧
      (-(symbol "theta")).resolve (some assignment.resolve) ≠ .ok (-1.5) := by
  intro assignment
  refine ⟨?_, ?_⟩
  · rw [Parameter.resolve, bareName_theta.resolve]
    rfl
  · have unknown : assignment.get? (negationText "theta") = none := rfl
    rw [resolve_neg_symbol, unknown]
    simp

end Parameter
end CircuitRunner
