import AccessPattern.Random.Source

/-!
# The seeded generator

The xoshiro256++ generator: four 64-bit words of state, filled from a 64-bit seed by four
successive outputs of SplitMix64. A 32-bit word is the upper half of one 64-bit output, so
either kind of request advances the state by one step.
-/

namespace AccessPattern

/-- The four state words of a xoshiro256++ generator. -/
structure Xoshiro where
  s0 : UInt64
  s1 : UInt64
  s2 : UInt64
  s3 : UInt64
deriving DecidableEq, Repr

namespace Xoshiro

/-- Rotate a 64-bit word to the left. -/
def rotateLeft (word : UInt64) (places : UInt64) : UInt64 :=
  (word <<< places) ||| (word >>> (64 - places))

/-- The distance between two successive states of SplitMix64. -/
def seedIncrement : UInt64 := 0x9e3779b97f4a7c15

/-- The output function of SplitMix64. -/
def mixSeed (state : UInt64) : UInt64 :=
  let a := (state ^^^ (state >>> 30)) * 0xbf58476d1ce4e5b9
  let b := (a ^^^ (a >>> 27)) * 0x94d049bb133111eb
  b ^^^ (b >>> 31)

/-- Fill the state with the first four SplitMix64 outputs after the seed. -/
def ofSeed (seed : UInt64) : Xoshiro where
  s0 := mixSeed (seed + seedIncrement)
  s1 := mixSeed (seed + 2 * seedIncrement)
  s2 := mixSeed (seed + 3 * seedIncrement)
  s3 := mixSeed (seed + 4 * seedIncrement)

/-- The next 64-bit output and the state that follows it. -/
def nextLong (g : Xoshiro) : UInt64 × Xoshiro :=
  let output := rotateLeft (g.s0 + g.s3) 23 + g.s0
  let mixed2 := g.s2 ^^^ g.s0
  let mixed3 := g.s3 ^^^ g.s1
  (output,
    { s0 := g.s0 ^^^ mixed3
      s1 := g.s1 ^^^ mixed2
      s2 := mixed2 ^^^ (g.s1 <<< 17)
      s3 := rotateLeft mixed3 45 })

/-- The next 32-bit output, the upper half of a 64-bit one. -/
def nextShort (g : Xoshiro) : UInt32 × Xoshiro :=
  let (output, next) := g.nextLong
  ((output >>> 32).toUInt32, next)

end Xoshiro

instance : WordSource Xoshiro where
  nextWord := Xoshiro.nextShort
  patience := UInt64.size / 4

end AccessPattern
