/-! Blank characters: those with the property White_Space. -/
namespace CircuitRunner.Text

def blankRanges : List (Nat × Nat) :=
  [(0x09, 0x0D), (0x20, 0x20), (0x85, 0x85), (0xA0, 0xA0), (0x1680, 0x1680), (0x2000, 0x200A),
    (0x2028, 0x2029), (0x202F, 0x202F), (0x205F, 0x205F), (0x3000, 0x3000)]

def isBlank (c : Char) : Bool :=
  blankRanges.any fun range => range.1 ≤ c.toNat && c.toNat ≤ range.2

def trimChars (chars : List Char) : List Char :=
  ((chars.dropWhile isBlank).reverse.dropWhile isBlank).reverse

theorem length_trimChars_le (chars : List Char) : (trimChars chars).length ≤ chars.length := by
  have front := (List.dropWhile_suffix (l := chars) isBlank).length_le
  have back := (List.dropWhile_suffix (l := (chars.dropWhile isBlank).reverse) isBlank).length_le
  simp only [trimChars, List.length_reverse] at back ⊢
  exact Nat.le_trans back front

end CircuitRunner.Text
