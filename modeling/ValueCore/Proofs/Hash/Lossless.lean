import Mathlib.Data.FinEnum
import Mathlib.Data.Int.GCD
import Mathlib.Data.Set.Function
import ValueCore.Proofs.Hash.Bytes
import ValueCore.Proofs.Value.Alike
/-!
# Mixing without loss

A hash is mixed in several rounds on its way into a value hash.  No round sends two words to one:
each of them is a bijection on words of 32 bits.

The rounds are made of five kinds of steps, and each step can be undone.

* An odd factor has an inverse modulo `2 ^ 32` (`mul_injective`).
* A rotation moves every bit to a place of its own (`rotateLeft_injective`).
* `xorShift` goes through an exclusive or, so two words with one image differ in a word that is its
  own shift, and only zero is (`xorShift_injective`).
* A fixed word is added, or taken in by an exclusive or.

There are as many results as words, so no result is missed either.  Hence hashes that differ still
do so after closing a collection (`mixCollection_bijective`) and after being folded into one seed
(`combineHash_bijective`).  The hash of an integer is such a round as well, but zero is taken out of
it and meets one other integer at the result zero (`hashInt_eq_zero_iff`).

A seed comes in twice where a hash is folded in, and two seeds can be sent to one.  So it is the
last element alone that is sure to tell two sequences apart (`Value.mixing_lossless`).
-/

namespace ValueCore

namespace Murmur

/-! ## Steps that can be undone -/

/-- An odd word has an inverse. -/
theorem exists_mul_eq_one {c : UInt32} (odd : Odd c.toNat) : ∃ d : UInt32, c * d = 1 := by
  have coprime : Nat.Coprime c.toNat (2 ^ 32) := odd.coprime_two_right.pow_right 32
  obtain ⟨d, -, unit⟩ := Nat.exists_mul_mod_eq_one_of_coprime coprime (by decide)
  refine ⟨UInt32.ofNat d, UInt32.toNat_inj.mp ?_⟩
  rw [UInt32.toNat_mul, UInt32.toNat_ofNat', Nat.mul_mod_mod, unit]
  rfl

theorem mul_injective {c : UInt32} (odd : Odd c.toNat) : Function.Injective (· * c) := by
  obtain ⟨d, unit⟩ := exists_mul_eq_one odd
  intro x y same
  have back := congrArg (· * d) same
  simpa only [UInt32.mul_assoc, unit, UInt32.mul_one] using back

theorem rotateLeft_injective {r : UInt32} (positive : 0 < r.toNat) (bounded : r.toNat < 32) :
    Function.Injective (rotateLeft · r) := by
  intro x y same
  have turned : x.toBitVec.rotateLeft r.toNat = y.toBitVec.rotateLeft r.toNat := by
    rw [← toBitVec_rotateLeft x positive bounded, ← toBitVec_rotateLeft y positive bounded]
    exact congrArg UInt32.toBitVec same
  apply UInt32.toBitVec_inj.mp
  apply BitVec.eq_of_getElem_eq
  intro i inRange
  -- The bit has gone up by `r` places, or has come in again from below.
  by_cases inside : i + r.toNat < 32
  · have bit : (x.toBitVec.rotateLeft r.toNat)[i + r.toNat] =
        (y.toBitVec.rotateLeft r.toNat)[i + r.toNat] := by rw [turned]
    simpa [BitVec.getElem_rotateLeft, Nat.mod_eq_of_lt bounded] using bit
  · have below : i + r.toNat - 32 < r.toNat := by omega
    have place : 32 - r.toNat + (i + r.toNat - 32) = i := by omega
    have bit : (x.toBitVec.rotateLeft r.toNat)[i + r.toNat - 32] =
        (y.toBitVec.rotateLeft r.toNat)[i + r.toNat - 32] := by simp only [turned]
    simpa [BitVec.getElem_rotateLeft, Nat.mod_eq_of_lt bounded, below, place] using bit

theorem xorShift_xor (x y r : UInt32) : xorShift (x ^^^ y) r = xorShift x r ^^^ xorShift y r := by
  simp only [xorShift, UInt32.shiftRight_xor]
  ac_rfl

/-- Only zero is its own shift. -/
theorem eq_zero_of_xorShift {h r : UInt32} (positive : 0 < r.toNat) (bounded : r.toNat < 32)
    (zero : xorShift h r = 0) : h = 0 := by
  have shifted : h.toNat = h.toNat / 2 ^ r.toNat := by
    calc h.toNat = (h >>> r).toNat := by rw [← UInt32.xor_eq_zero_iff.mp zero]
      _ = h.toNat / 2 ^ r.toNat := by
        rw [UInt32.toNat_shiftRight, Nat.mod_eq_of_lt bounded, Nat.shiftRight_eq_div_pow]
  have halved : 1 < 2 ^ r.toNat := Nat.one_lt_two_pow positive.ne'
  by_contra nonzero
  have room : 0 < h.toNat := Nat.pos_of_ne_zero fun none => nonzero (UInt32.toNat_inj.mp none)
  exact absurd shifted (Nat.div_lt_self room halved).ne'

theorem xorShift_injective {r : UInt32} (positive : 0 < r.toNat) (bounded : r.toNat < 32) :
    Function.Injective (xorShift · r) := by
  intro x y same
  have zero : xorShift (x ^^^ y) r = 0 := by
    rw [xorShift_xor]
    exact UInt32.xor_eq_zero_iff.mpr same
  exact UInt32.xor_eq_zero_iff.mp (eq_zero_of_xorShift positive bounded zero)

/-! ## Rounds of mixing -/

theorem mixBlock_injective : Function.Injective mixBlock := by
  have first : Function.Injective (· * (0xcc9e2d51 : UInt32)) := mul_injective (by decide)
  have turned : Function.Injective (rotateLeft · 15) :=
    rotateLeft_injective (by decide) (by decide)
  have last : Function.Injective (· * (0x1b873593 : UInt32)) := mul_injective (by decide)
  exact last.comp (turned.comp first)

theorem mixState_injective (h : UInt32) : Function.Injective (mixState h) := by
  have folded : Function.Injective (h ^^^ ·) := fun _ _ => (UInt32.xor_right_inj h).mp
  have turned : Function.Injective (rotateLeft · 13) :=
    rotateLeft_injective (by decide) (by decide)
  have scaled : Function.Injective (· * (5 : UInt32)) := mul_injective (by decide)
  have moved : Function.Injective (· + (0xe6546b64 : UInt32)) :=
    fun _ _ => (UInt32.add_left_inj _).mp
  exact moved.comp (scaled.comp (turned.comp folded))

theorem finish_injective (length : UInt32) : Function.Injective (finish · length) := by
  have folded : Function.Injective (· ^^^ length) := fun _ _ => (UInt32.xor_left_inj length).mp
  have spread : Function.Injective (xorShift · 16) := xorShift_injective (by decide) (by decide)
  have spread' : Function.Injective (xorShift · 13) := xorShift_injective (by decide) (by decide)
  have scaled : Function.Injective (· * (0x85ebca6b : UInt32)) := mul_injective (by decide)
  have scaled' : Function.Injective (· * (0xc2b2ae35 : UInt32)) := mul_injective (by decide)
  exact spread.comp (scaled'.comp (spread'.comp (scaled.comp (spread.comp folded))))

theorem mixCollection_bijective (count : Nat) : Function.Bijective (mixCollection · count) := by
  apply Function.Injective.bijective_of_finite
  exact (finish_injective count.toUInt32).comp ((mixState_injective 0).comp mixBlock_injective)

/-! ## Integers -/

/-- An integer other than zero is mixed as a collection of its four bytes. -/
theorem hashInt_of_ne_zero {n : UInt32} (nonzero : n ≠ 0) : hashInt n = mixCollection n 4 :=
  if_neg nonzero

theorem hashInt_injOn : Set.InjOn hashInt {0}ᶜ := by
  intro m nonzero n nonzero' same
  rw [hashInt_of_ne_zero nonzero, hashInt_of_ne_zero nonzero'] at same
  exact (mixCollection_bijective 4).injective same

/-- One word shares its hash with zero. -/
theorem hashInt_eq_zero_iff {n : UInt32} : hashInt n = 0 ↔ n = 0 ∨ n = 0xc2479b7a := by
  constructor
  · intro zero
    by_cases nonzero : n = 0
    · exact .inl nonzero
    · have other : hashInt 0xc2479b7a = 0 := by decide
      exact .inr (hashInt_injOn nonzero (by decide) (zero.trans other.symm))
  · rintro (rfl | rfl) <;> decide

end Murmur

theorem combineHash_bijective (seed : UInt32) : Function.Bijective (combineHash seed) := by
  apply Function.Injective.bijective_of_finite
  intro h h' same
  rw [combineHash, combineHash, UInt32.xor_right_inj] at same
  simpa only [UInt32.add_left_inj] using same

namespace Value

/-! ## Values -/

theorem hashOrdered_concat (xs : List Value) (x : Value) :
    hashOrdered (xs ++ [x]) =
      Murmur.mixCollection (combineHash ((xs.map hashEq).foldl combineHash 1) x.hashEq)
        (xs.length + 1) := by
  rw [hashOrdered, combineAll_eq_foldl, List.map_append, List.foldl_append, List.length_append]
  rfl

/-- Elements before the last one that hash alike leave the last one to decide. -/
theorem hashOrdered_concat_inj {xs ys : List Value} {x y : Value}
    (alike : xs.map hashEq = ys.map hashEq) :
    hashOrdered (xs ++ [x]) = hashOrdered (ys ++ [y]) ↔ x.hashEq = y.hashEq := by
  have length : xs.length = ys.length := by simpa using congrArg List.length alike
  rw [hashOrdered_concat, hashOrdered_concat, alike, length]
  exact (Murmur.mixCollection_bijective _).injective.eq_iff.trans
    (combineHash_bijective _).injective.eq_iff

/-- An element before the last one may be lost, with its seed. -/
example : hashOrdered [char '\u04ff', char ' '] = hashOrdered [char '\u084c', char ' '] := by decide

theorem hashOrdered_ne_of_getLast? {xs ys : List Value} (length : xs.length = ys.length)
    (alike : xs.dropLast.map hashEq = ys.dropLast.map hashEq)
    (differ : xs.getLast?.map hashEq ≠ ys.getLast?.map hashEq) :
    hashOrdered xs ≠ hashOrdered ys := by
  rcases List.eq_nil_or_concat' xs with rfl | ⟨front, x, rfl⟩
  · have empty : ys = [] := List.eq_nil_of_length_eq_zero length.symm
    exact absurd (by rw [empty]) differ
  rcases List.eq_nil_or_concat' ys with rfl | ⟨front', y, rfl⟩
  · exact absurd (List.eq_nil_of_length_eq_zero length) (List.concat_ne_nil x front)
  rw [List.dropLast_concat, List.dropLast_concat] at alike
  rw [List.getLast?_concat, List.getLast?_concat] at differ
  intro same
  exact differ (congrArg some ((hashOrdered_concat_inj alike).mp same))

/-- Texts whose hashes of content differ and are not zero have different value hashes. -/
theorem hashEq_str_ne {i j : Nat} {s t : String} (nonzero : (str i s).hash ≠ 0)
    (nonzero' : (str j t).hash ≠ 0) (differ : (str i s).hash ≠ (str j t).hash) :
    (str i s).hashEq ≠ (str j t).hashEq :=
  fun same => differ (Murmur.hashInt_injOn nonzero nonzero' same)

/-- Mixing loses nothing.  Closing a collection of any size and folding a hash into any seed are
bijections, and no two integers other than zero share a hash.  So texts with different hashes of
content that are not zero, and sequences of one length in which only the last elements hash
differently, are told apart by their value hashes. -/
theorem mixing_lossless :
    (∀ count, Function.Bijective (Murmur.mixCollection · count)) ∧
    (∀ seed, Function.Bijective (combineHash seed)) ∧
    Set.InjOn Murmur.hashInt {0}ᶜ ∧
    (∀ i j s t, (str i s).hash ≠ 0 → (str j t).hash ≠ 0 → (str i s).hash ≠ (str j t).hash →
      (str i s).hashEq ≠ (str j t).hashEq) ∧
    (∀ xs ys : List Value, xs.length = ys.length →
      xs.dropLast.map hashEq = ys.dropLast.map hashEq →
      xs.getLast?.map hashEq ≠ ys.getLast?.map hashEq → hashOrdered xs ≠ hashOrdered ys) :=
  ⟨Murmur.mixCollection_bijective, combineHash_bijective, Murmur.hashInt_injOn,
    fun _ _ _ _ => hashEq_str_ne, fun _ _ => hashOrdered_ne_of_getLast?⟩

/-- Integers of both signs, texts that end alike, and a vector and a list that begin with equivalent
elements, where nil and false come last. -/
theorem mixing_lossless_alike :
    Murmur.hashInt 1 ≠ Murmur.hashInt 0xffffffff ∧
    (str 0 "😀").hashEq ≠ (str 1 "a😀").hashEq ∧
    hashOrdered [num (.int 1), vector 2 [str 3 "a"], nil] ≠
      hashOrdered [num (.big 4 1), list 5 [str 6 "a"], bool false] := by
  obtain ⟨-, -, integers, texts, sequences⟩ := mixing_lossless
  refine ⟨?_, ?_, ?_⟩
  · intro same
    exact absurd (integers (by decide) (by decide) same) (by decide)
  · exact texts 0 1 "😀" "a😀" (by decide) (by decide) (by decide)
  · exact sequences _ _ rfl (by decide) (by decide)

end Value

end ValueCore
