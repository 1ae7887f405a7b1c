/-!
# Running hashes

One hash is folded into a running seed so that the order of the hashes matters.
The right shift of the seed keeps its sign.  All else is arithmetic modulo
`2 ^ 32`.
-/

namespace ValueCore

/-- The fractional part of the golden ratio in 32 bits. -/
def goldenRatio : UInt32 := 0x9e3779b9

/-- A seed moved down by two places, with copies of its sign bit coming in. -/
def quarter (seed : UInt32) : UInt32 := (seed.toInt32 >>> 2).toUInt32

/-- Folds the hash `h` into a seed. -/
def combineHash (seed h : UInt32) : UInt32 :=
  seed ^^^ (h + goldenRatio + (seed <<< 6) + quarter seed)

/-- The seeds that folding hashes in one after another runs through. -/
def runningSeeds (seed : UInt32) : List UInt32 → List UInt32
  | [] => []
  | h :: rest => combineHash seed h :: runningSeeds (combineHash seed h) rest

example : combineHash 0 0 = goldenRatio := by decide

end ValueCore
