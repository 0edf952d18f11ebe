import CircuitRunner.Scalar
import CircuitRunner.Decimal.Shortest
import CircuitRunner.Decimal.Numeral

/-! Double precision numbers as scalars, and their written form: the fewest digits
that read back to the same number, never with an exponent. -/
namespace CircuitRunner.Double

/-- Mantissa, binary exponent and whether the mantissa is the least of its binade. -/
def decompose (x : Float) : Nat × Int × Bool :=
  let bits := x.toBits.toNat
  let fraction : Nat := bits % Nat.pow 2 52
  let biased : Nat := bits / Nat.pow 2 52 % Nat.pow 2 11
  if biased = 0 then (fraction, -1074, false)
  else (fraction + Nat.pow 2 52, (biased : Int) - 1075, fraction == 0 && biased > 1)

/-- The square root of `square * 4^exponent`, rounded once. The root is taken with more
bits than a double holds, and its last bit tells whether anything was cut off. -/
def root (square : Nat) (exponent : Int) : Float :=
  let excess : Int := (square.log2 : Int) / 2 - 60
  let scaled := square * Nat.pow 4 (-excess).toNat / Nat.pow 4 excess.toNat
  let whole := scaled.sqrt
  let exact := whole * whole * Nat.pow 4 excess.toNat == square * Nat.pow 4 (-excess).toNat
  (2 * whole + if exact then 0 else 1).toUInt64.toFloat.scaleB (exponent + excess - 1)

def hypot (x y : Float) : Float :=
  if x.isInf || y.isInf then 1.0 / 0.0
  else if x.isNaN || y.isNaN then 0.0 / 0.0
  else
    let (mantissa, exponent, _) := decompose x
    let (mantissa', exponent', _) := decompose y
    let least := min exponent exponent'
    let a := mantissa * Nat.pow 2 (exponent - least).toNat
    let b := mantissa' * Nat.pow 2 (exponent' - least).toNat
    root (a * a + b * b) least

instance : Scalar Float where
  zero := 0
  one := 1
  sqrt := Float.sqrt
  hypot := hypot
  sin := Float.sin
  cos := Float.cos
  pi := 3.141592653589793
  sqrtHalf := 0.7071067811865476
  less x y := decide (x < y)
  atMost x y := decide (x ≤ y)

def isNegative (x : Float) : Bool := x.toBits.toNat / Nat.pow 2 63 == 1

def text (x : Float) : String :=
  let sign := if isNegative x then "-" else ""
  if x.isNaN then "NaN"
  else if x.isInf then sign ++ "inf"
  else
    let (mantissa, exponent, atPower) := decompose x
    if mantissa = 0 then sign ++ "0"
    else
      let (digits, place) := (Decimal.Interval.ofBinary mantissa exponent atPower).shortest
      sign ++ Decimal.positional digits place

/-- The double nearest to `mantissa * 10^exponent`. Magnitudes far outside the range
are settled by their size alone. -/
def ofDecimal (mantissa : Nat) (exponent : Int) : Float :=
  let magnitude := (Decimal.digitCount mantissa : Int) + exponent
  if mantissa = 0 then 0
  else if magnitude > 310 then 1.0 / 0.0
  else if magnitude < -330 then 0
  else Float.ofScientific mantissa (exponent < 0) exponent.natAbs

def ofNumeral : Decimal.Numeral → Float
  | .finite negative mantissa exponent =>
    let size := ofDecimal mantissa exponent
    if negative then -size else size
  | .infinite negative => if negative then -(1.0 / 0.0) else 1.0 / 0.0
  | .nan => 0.0 / 0.0

def ofInt (n : Int) : Float :=
  let size := ofDecimal n.natAbs 0
  if n < 0 then -size else size

instance : Literal Float where
  text := text
  read literal := (Decimal.Numeral.parse literal.toList).map ofNumeral
  isFinite := Float.isFinite
  whole x := x.toUInt64.toNat
  ofInt := ofInt

end CircuitRunner.Double
