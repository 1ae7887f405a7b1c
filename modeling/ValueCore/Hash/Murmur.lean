/-!
# Murmur3 mixing

The 32-bit Murmur3 steps that every value hash is built from.  A *block* is one
32-bit word.  Each block is scrambled (`mixBlock`), folded into the running
state (`mixState`), and the state is spread once at the end (`finish`) together
with the length of the input in bytes.

Integers, texts and collections differ only in the blocks they feed and in the
length they close with.  Zero is special-cased: `hashInt 0` and `hashLong 0` are
`0`.  All arithmetic is modulo `2 ^ 32`.
-/

namespace ValueCore.Murmur

/-- Rotates a word to the left by `r` places, for `0 < r < 32`. -/
def rotateLeft (x : UInt32) (r : UInt32) : UInt32 :=
  (x <<< r) ||| (x >>> (32 - r))

/-- Scrambles one block. -/
def mixBlock (k : UInt32) : UInt32 :=
  rotateLeft (k * 0xcc9e2d51) 15 * 0x1b873593

/-- Folds a scrambled block into the running state. -/
def mixState (h k : UInt32) : UInt32 :=
  rotateLeft (h ^^^ k) 13 * 5 + 0xe6546b64

/-- Xors the upper part of a word, moved down by `r` places, into the word. -/
def xorShift (h : UInt32) (r : UInt32) : UInt32 :=
  h ^^^ (h >>> r)

/-- Spreads every bit of the state over the whole word, given the input's length. -/
def finish (h length : UInt32) : UInt32 :=
  xorShift (xorShift (xorShift (h ^^^ length) 16 * 0x85ebca6b) 13 * 0xc2b2ae35) 16

/-- The hash of a 32-bit integer: one block, four bytes. -/
def hashInt (n : UInt32) : UInt32 :=
  if n = 0 then 0 else finish (mixState 0 (mixBlock n)) 4

/-- The hash of a 64-bit integer: the low word, then the high word, eight bytes. -/
def hashLong (n : UInt64) : UInt32 :=
  if n = 0 then 0
  else
    let low := mixBlock n.toUInt32
    let high := mixBlock (n >>> 32).toUInt32
    finish (mixState (mixState 0 low) high) 8

/-- Two code units as one block, the first in the low half. -/
def pairBlock (a b : UInt16) : UInt32 :=
  a.toUInt32 ||| (b.toUInt32 <<< 16)

/-- The state after a sequence of code units, two at a time.  A unit that is left
over is scrambled and xored in without a state step. -/
def unitsState (h : UInt32) : List UInt16 → UInt32
  | [] => h
  | [a] => h ^^^ mixBlock a.toUInt32
  | a :: b :: rest => unitsState (mixState h (mixBlock (pairBlock a b))) rest

theorem unitsState_pair (h : UInt32) (a b : UInt16) (rest : List UInt16) :
    unitsState h (a :: b :: rest) = unitsState (mixState h (mixBlock (pairBlock a b))) rest := by
  rw [unitsState.eq_def]

/-- The hash of a text given by its UTF-16 code units, two bytes each. -/
def hashUnits (units : List UInt16) : UInt32 :=
  finish (unitsState 0 units) (2 * units.length).toUInt32

/-- Closes an accumulated collection hash with the number of elements, which
counts modulo `2 ^ 32`. -/
def mixCollection (h : UInt32) (count : Nat) : UInt32 :=
  finish (mixState 0 (mixBlock h)) count.toUInt32

example : hashInt 0 = 0 := by decide
example : hashLong 0 = 0 := by decide
example : hashUnits [] = 0 := by decide

end ValueCore.Murmur
