/-! The shortest decimal inside the interval of numbers that round to a given
binary number `mantissa * 2^exponent`, and its text without an exponent. -/
namespace CircuitRunner.Decimal

structure Interval where
  lower : Nat
  value : Nat
  upper : Nat
  denominator : Nat
  /-- Whether the bounds themselves belong to the interval. -/
  closed : Bool

/-- The numbers nearer to `mantissa * 2^exponent` than to its neighbours. Below a
power of two the neighbours are half as far, which `atPower` tells. The bounds
round to the even side. -/
def Interval.ofBinary (mantissa : Nat) (exponent : Int) (atPower : Bool) : Interval :=
  let shift := exponent - 2
  let factor := Nat.pow 2 shift.toNat
  { lower := (4 * mantissa - if atPower then 1 else 2) * factor
    value := 4 * mantissa * factor
    upper := (4 * mantissa + 2) * factor
    denominator := Nat.pow 2 (-shift).toNat
    closed := mantissa % 2 == 0 }

def digitCount (n : Nat) : Nat := (Nat.toDigits 10 n).length

def Interval.magnitude (interval : Interval) : Int :=
  let guess := (digitCount interval.value : Int) - digitCount interval.denominator
  if interval.value * Nat.pow 10 (-guess).toNat < interval.denominator * Nat.pow 10 guess.toNat then guess
  else guess + 1

/-- The multiple of `10^place` that lies in the interval nearest to the value; of two
equally near ones the larger. -/
def Interval.nearest (interval : Interval) (place : Int) : Option Nat :=
  let up := Nat.pow 10 (-place).toNat
  let unit := interval.denominator * Nat.pow 10 place.toNat
  let contains (multiple : Nat) : Bool :=
    if interval.closed then
      interval.lower * up ≤ multiple * unit && multiple * unit ≤ interval.upper * up
    else interval.lower * up < multiple * unit && multiple * unit < interval.upper * up
  let below := interval.value * up / unit
  match contains below, contains (below + 1) with
  | true, true => some (if 2 * (interval.value * up) < (2 * below + 1) * unit then below else below + 1)
  | true, false => some below
  | false, true => some (below + 1)
  | false, false => none

/-- Digits and place of the shortest decimal in the interval. Seventeen digits
always suffice for a double. -/
def Interval.shortest (interval : Interval) : Nat × Int :=
  let magnitude := interval.magnitude
  let found := (List.range 17).findSome? fun (shorter : Nat) =>
    let place := magnitude - (shorter + 1 : Nat)
    (interval.nearest place).map fun digits => (digits, place)
  found.getD (interval.value / interval.denominator, 0)

/-- The text of `digits * 10^place`: no exponent, no trailing zero after the point. -/
def positional (digits : Nat) (place : Int) : String :=
  let text := Nat.toDigits 10 digits
  let places := (-place).toNat
  let padded := List.replicate (places + 1 - text.length) '0' ++ text
  let whole := padded.take (padded.length - places)
  let fraction := ((padded.drop (padded.length - places)).reverse.dropWhile (· == '0')).reverse
  let zeros := List.replicate place.toNat '0'
  if fraction.isEmpty then String.ofList (whole ++ zeros)
  else String.ofList (whole ++ '.' :: fraction)

end CircuitRunner.Decimal
