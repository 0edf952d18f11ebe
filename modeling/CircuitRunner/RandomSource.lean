/-! A random source of doubles in `[0, 1)`: a counter that is stepped and mixed. -/
namespace CircuitRunner.RandomSource

def mix (word : UInt64) : UInt64 :=
  let a := (word ^^^ (word >>> 30)) * 0xBF58476D1CE4E5B9
  let b := (a ^^^ (a >>> 27)) * 0x94D049BB133111EB
  b ^^^ (b >>> 31)

def draw (seed : UInt64) : Float × UInt64 :=
  let next := seed + 0x9E3779B97F4A7C15
  ((mix next >>> 11).toFloat / 9007199254740992.0, next)

end CircuitRunner.RandomSource
