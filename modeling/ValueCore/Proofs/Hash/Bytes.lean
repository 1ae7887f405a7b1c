import Mathlib.Data.Int.ModEq
import Mathlib.Tactic.Ring
import ValueCore.Hash.Murmur
import ValueCore.Text.Units
/-!
# Hashes of bytes

Murmur3 is defined on bytes.  Four bytes make a block, the lowest byte first, and up to three bytes
that are left over make one more block without a step of the state.  At the end the number of bytes
comes in, modulo `2 ^ 32` (`Murmur.byteHash`).

The hashes of integers and texts feed words and code units and never see a byte.  They are the
hash of the bytes all the same (`Murmur.hash_eq_byteHash`).

* The steps on words are the steps of the algorithm on bit vectors (`toBitVec_mixBlock`,
  `toBitVec_mixState`, `toBitVec_finish`).
* An integer has bytes in two's complement, the lowest first (`integerBytes`).  Four of them are its
  word (`block_integerBytes`), and eight are the low word and then the high one.
* The bytes of a text are the two bytes of each code unit.  Two units are one block, and a unit that
  is left over is a tail of two bytes (`toBitVec_unitsState`).
-/

namespace ValueCore.Murmur

/-! ## The algorithm -/

/-- The number that bytes make, the lowest byte first. -/
def littleEndian (bytes : List UInt8) : Nat :=
  bytes.foldr (fun byte n => byte.toNat + 256 * n) 0

/-- The block that up to four bytes make. -/
def block (bytes : List UInt8) : BitVec 32 := BitVec.ofNat 32 (littleEndian bytes)

/-- A block before it goes into the state. -/
def scrambled (k : BitVec 32) : BitVec 32 :=
  (k * 0xcc9e2d51#32).rotateLeft 15 * 0x1b873593#32

/-- The state after one more block. -/
def absorbed (h k : BitVec 32) : BitVec 32 :=
  0xe6546b64#32 + (h ^^^ scrambled k).rotateLeft 13 * 5#32

/-- The state after some bytes.  Those after the last whole block only change the state by an
exclusive or. -/
def bytesState (h : BitVec 32) : List UInt8 → BitVec 32
  | [] => h
  | [a] => h ^^^ scrambled (block [a])
  | [a, b] => h ^^^ scrambled (block [a, b])
  | [a, b, c] => h ^^^ scrambled (block [a, b, c])
  | a :: b :: c :: d :: rest => bytesState (absorbed h (block [a, b, c, d])) rest

/-- The last mixing of the state. -/
def finalized (h : BitVec 32) : BitVec 32 :=
  let h₁ := (h ^^^ h >>> 16) * 0x85ebca6b#32
  let h₂ := (h₁ ^^^ h₁ >>> 13) * 0xc2b2ae35#32
  h₂ ^^^ h₂ >>> 16

/-- The hash of bytes from a seed. -/
def byteHash (seed : BitVec 32) (bytes : List UInt8) : BitVec 32 :=
  finalized (bytesState seed bytes ^^^ BitVec.ofNat 32 bytes.length)

/-- The thirteen bytes of `Hello, world!` are three blocks and a tail of one byte. -/
example : byteHash 0#32 ("Hello, world!".toList.map fun c => c.toNat.toUInt8) = 0xc0363e43#32 := by
  decide

/-! ## Steps on words -/

theorem toBitVec_rotateLeft (x : UInt32) {r : UInt32} (positive : 0 < r.toNat)
    (bounded : r.toNat < 32) : (rotateLeft x r).toBitVec = x.toBitVec.rotateLeft r.toNat := by
  have back : ((32 - r).toBitVec % 32).toNat = 32 - r.toNat := by
    change ((32#32 - r.toBitVec) % 32#32).toNat = 32 - r.toNat
    have same : r.toBitVec.toNat = r.toNat := rfl
    rw [BitVec.toNat_umod, BitVec.toNat_sub, same]
    change (2 ^ 32 - r.toNat + 32) % 2 ^ 32 % 32 = 32 - r.toNat
    omega
  have forth : (r.toBitVec % 32).toNat = r.toNat := Nat.mod_eq_of_lt bounded
  rw [rotateLeft, UInt32.toBitVec_or, UInt32.toBitVec_shiftLeft, UInt32.toBitVec_shiftRight,
    BitVec.rotateLeft_def, Nat.mod_eq_of_lt bounded]
  exact congrArg₂ (fun m n => x.toBitVec <<< m ||| x.toBitVec >>> n) forth back

theorem toBitVec_mixBlock (k : UInt32) : (mixBlock k).toBitVec = scrambled k.toBitVec := by
  rw [mixBlock, UInt32.toBitVec_mul, toBitVec_rotateLeft _ (by decide) (by decide),
    UInt32.toBitVec_mul]
  rfl

theorem toBitVec_mixState (h k : UInt32) :
    (mixState h (mixBlock k)).toBitVec = absorbed h.toBitVec k.toBitVec := by
  rw [mixState, UInt32.toBitVec_add, UInt32.toBitVec_mul,
    toBitVec_rotateLeft _ (by decide) (by decide), UInt32.toBitVec_xor, toBitVec_mixBlock,
    BitVec.add_comm]
  rfl

theorem toBitVec_finish (h length : UInt32) :
    (finish h length).toBitVec = finalized (h.toBitVec ^^^ length.toBitVec) := by
  rfl

/-! ## Bytes of integers -/

/-- The bytes of an integer in two's complement, the lowest one first. -/
def integerBytes : Nat → Int → List UInt8
  | 0, _ => []
  | width + 1, n => UInt8.ofInt n :: integerBytes width (n / 256)

theorem length_integerBytes (width : Nat) (n : Int) : (integerBytes width n).length = width := by
  induction width generalizing n with
  | zero => rfl
  | succ width ih => rw [integerBytes, List.length_cons, ih]

theorem littleEndian_cons (byte : UInt8) (bytes : List UInt8) :
    littleEndian (byte :: bytes) = byte.toNat + 256 * littleEndian bytes := rfl

theorem littleEndian_append (bytes bytes' : List UInt8) :
    littleEndian (bytes ++ bytes') =
      littleEndian bytes + 256 ^ bytes.length * littleEndian bytes' := by
  induction bytes with
  | nil =>
    rw [List.nil_append, List.length_nil, pow_zero, one_mul]
    exact (Nat.zero_add _).symm
  | cons byte bytes ih =>
    rw [List.cons_append, littleEndian_cons, littleEndian_cons, ih, List.length_cons, pow_succ']
    ring

theorem littleEndian_lt (bytes : List UInt8) : littleEndian bytes < 256 ^ bytes.length := by
  induction bytes with
  | nil => exact Nat.one_pos
  | cons byte bytes ih =>
    have bound := byte.toNat_lt
    rw [littleEndian_cons, List.length_cons, pow_succ']
    omega

/-- The bytes make a number that is congruent to the integer. -/
theorem littleEndian_integerBytes (width : Nat) (n : Int) :
    (littleEndian (integerBytes width n) : Int) ≡ n [ZMOD 256 ^ width] := by
  induction width generalizing n with
  | zero => exact Int.modEq_one
  | succ width ih =>
    have byte : ((UInt8.ofInt n).toNat : Int) = n % 256 := by
      change (((n % 256).toNat % 256 : Nat) : Int) = n % 256
      omega
    have higher : 256 * (littleEndian (integerBytes width (n / 256)) : Int) ≡ 256 * (n / 256)
        [ZMOD 256 ^ (width + 1)] := by
      rw [pow_succ']
      exact (ih (n / 256)).mul_left'
    rw [integerBytes, littleEndian_cons, Nat.cast_add, Nat.cast_mul, byte]
    calc n % 256 + 256 * (littleEndian (integerBytes width (n / 256)) : Int)
        ≡ n % 256 + 256 * (n / 256) [ZMOD 256 ^ (width + 1)] := higher.add_left _
      _ = n := Int.emod_add_mul_ediv n 256

/-- Four bytes of an integer make its word. -/
theorem block_integerBytes (n : Int) : block (integerBytes 4 n) = BitVec.ofInt 32 n := by
  apply BitVec.eq_of_toNat_eq
  have value : (littleEndian (integerBytes 4 n) : Int) % 256 ^ 4 = n % 256 ^ 4 :=
    littleEndian_integerBytes 4 n
  rw [block, BitVec.toNat_ofNat, BitVec.toNat_ofInt]
  omega

/-- Eight bytes of an integer are its low word and its high word. -/
theorem integerBytes_eight (n : Int) :
    integerBytes 8 n = integerBytes 4 n ++ integerBytes 4 (n / 2 ^ 32) := by
  have high : n / 256 / 256 / 256 / 256 = n / 2 ^ 32 := by omega
  rw [← high]
  rfl

/-- Whole blocks go into the state. -/
theorem bytesState_integerBytes (h : BitVec 32) (n : Int) (rest : List UInt8) :
    bytesState h (integerBytes 4 n ++ rest) =
      bytesState (absorbed h (BitVec.ofInt 32 n)) rest := by
  rw [← block_integerBytes]
  simp only [integerBytes, List.cons_append, List.nil_append, bytesState]

/-! ## Integers -/

theorem toBitVec_hashInt {n : Int32} (nonzero : n ≠ 0) :
    (hashInt n.toUInt32).toBitVec = byteHash 0#32 (integerBytes 4 n.toInt) := by
  have word : n.toUInt32 ≠ 0 := by
    intro zero
    exact nonzero (Int32.toBitVec_inj.mp (congrArg UInt32.toBitVec zero))
  have only : n.toUInt32.toBitVec = BitVec.ofInt 32 n.toInt := BitVec.ofInt_toInt.symm
  have start : (0 : UInt32).toBitVec = 0#32 := rfl
  have length : (4 : UInt32).toBitVec = BitVec.ofNat 32 4 := rfl
  have state := bytesState_integerBytes 0#32 n.toInt []
  rw [List.append_nil, bytesState] at state
  rw [hashInt, if_neg word, toBitVec_finish, toBitVec_mixState, only, start, length, byteHash,
    state, length_integerBytes]

/-- A word of 64 bits is an integer modulo `2 ^ 64`. -/
theorem toNat_toUInt64 (n : Int64) : (n.toUInt64.toNat : Int) = n.toInt % 2 ^ 64 := by
  have value : n.toInt = n.toUInt64.toBitVec.toInt := rfl
  have bound := n.toUInt64.toNat_lt
  rw [value, BitVec.toInt_eq_toNat_cond, UInt64.toNat_toBitVec]
  split <;> omega

theorem toBitVec_hashLong {n : Int64} (nonzero : n ≠ 0) :
    (hashLong n.toUInt64).toBitVec = byteHash 0#32 (integerBytes 8 n.toInt) := by
  have word : n.toUInt64 ≠ 0 := by
    intro zero
    exact nonzero (Int64.toBitVec_inj.mp (congrArg UInt64.toBitVec zero))
  have value := toNat_toUInt64 n
  have low : n.toUInt64.toUInt32.toBitVec = BitVec.ofInt 32 n.toInt := by
    apply BitVec.eq_of_toNat_eq
    rw [UInt32.toNat_toBitVec, UInt64.toNat_toUInt32, BitVec.toNat_ofInt]
    omega
  have high : (n.toUInt64 >>> 32).toUInt32.toBitVec = BitVec.ofInt 32 (n.toInt / 2 ^ 32) := by
    apply BitVec.eq_of_toNat_eq
    have moved : (n.toUInt64 >>> 32).toNat = n.toUInt64.toNat / 2 ^ 32 := by
      rw [UInt64.toNat_shiftRight, Nat.shiftRight_eq_div_pow]
      rfl
    rw [UInt32.toNat_toBitVec, UInt64.toNat_toUInt32, BitVec.toNat_ofInt, moved]
    omega
  have start : (0 : UInt32).toBitVec = 0#32 := rfl
  have length : (8 : UInt32).toBitVec = BitVec.ofNat 32 8 := rfl
  have state := bytesState_integerBytes (absorbed 0#32 (BitVec.ofInt 32 n.toInt))
    (n.toInt / 2 ^ 32) []
  rw [List.append_nil, bytesState] at state
  rw [hashLong, if_neg word]
  dsimp only
  rw [toBitVec_finish, toBitVec_mixState, toBitVec_mixState, low, high, start, length, byteHash,
    length_integerBytes, integerBytes_eight, bytesState_integerBytes, state]

/-! ## Texts -/

/-- The bytes of code units: two for each, the lower one first. -/
def unitBytes (units : List UInt16) : List UInt8 :=
  units.flatMap fun unit => integerBytes 2 unit.toNat

theorem length_unitBytes (units : List UInt16) : (unitBytes units).length = 2 * units.length := by
  induction units with
  | nil => rfl
  | cons a units ih =>
    have more : unitBytes (a :: units) = integerBytes 2 a.toNat ++ unitBytes units := rfl
    rw [more, List.length_append, length_integerBytes, ih, List.length_cons]
    omega

theorem littleEndian_unit (a : UInt16) : littleEndian (integerBytes 2 a.toNat) = a.toNat := by
  have value : (littleEndian (integerBytes 2 a.toNat) : Int) % 256 ^ 2 = a.toNat % 256 ^ 2 :=
    littleEndian_integerBytes 2 a.toNat
  have bound := littleEndian_lt (integerBytes 2 a.toNat)
  have bound' := a.toNat_lt
  rw [length_integerBytes] at bound
  omega

/-- Two code units fill the halves of a block. -/
theorem toNat_pairBlock (a b : UInt16) : (pairBlock a b).toNat = a.toNat + 2 ^ 16 * b.toNat := by
  have bound := a.toNat_lt
  have bound' := b.toNat_lt
  have upper : (b.toUInt32 <<< 16).toNat = b.toNat <<< 16 := by
    rw [UInt32.toNat_shiftLeft, UInt16.toNat_toUInt32]
    change b.toNat <<< 16 % 2 ^ 32 = b.toNat <<< 16
    rw [Nat.shiftLeft_eq]
    omega
  rw [pairBlock, UInt32.toNat_or, UInt16.toNat_toUInt32, upper, Nat.or_comm,
    ← Nat.shiftLeft_add_eq_or_of_lt bound, Nat.shiftLeft_eq]
  omega

theorem block_unit (a : UInt16) : block (integerBytes 2 a.toNat) = a.toUInt32.toBitVec := by
  apply BitVec.eq_of_toNat_eq
  have bound := a.toNat_lt
  rw [block, littleEndian_unit, BitVec.toNat_ofNat, UInt32.toNat_toBitVec, UInt16.toNat_toUInt32]
  omega

theorem block_pair (a b : UInt16) :
    block (integerBytes 2 a.toNat ++ integerBytes 2 b.toNat) = (pairBlock a b).toBitVec := by
  apply BitVec.eq_of_toNat_eq
  have bound := a.toNat_lt
  have bound' := b.toNat_lt
  rw [block, littleEndian_append, littleEndian_unit, littleEndian_unit, length_integerBytes,
    BitVec.toNat_ofNat, UInt32.toNat_toBitVec, toNat_pairBlock]
  omega

/-- The state after code units is the state after their bytes. -/
theorem toBitVec_unitsState (h : UInt32) (units : List UInt16) :
    (unitsState h units).toBitVec = bytesState h.toBitVec (unitBytes units) := by
  induction h, units using unitsState.induct with
  | case1 h => rfl
  | case2 h a =>
    have state : unitsState h [a] = h ^^^ mixBlock a.toUInt32 := rfl
    rw [state, UInt32.toBitVec_xor, toBitVec_mixBlock, ← block_unit]
    rfl
  | case3 h a b rest ih =>
    rw [unitsState_pair, ih, toBitVec_mixState, ← block_pair]
    simp only [unitBytes, List.flatMap_cons, integerBytes, List.cons_append, List.nil_append,
      bytesState]

theorem toBitVec_hashUnits (units : List UInt16) :
    (hashUnits units).toBitVec = byteHash 0#32 (unitBytes units) := by
  have start : (0 : UInt32).toBitVec = 0#32 := rfl
  have length : (2 * units.length).toUInt32.toBitVec = BitVec.ofNat 32 (2 * units.length) := rfl
  rw [hashUnits, toBitVec_finish, toBitVec_unitsState, start, length, byteHash, length_unitBytes]

/-- The hashes of texts and of integers are the hash of their bytes from the seed `0`.  Zero alone
is left out. -/
theorem hash_eq_byteHash :
    (∀ s : String, (hashUnits (Text.units s)).toBitVec = byteHash 0#32 (unitBytes (Text.units s))) ∧
      (∀ n : Int32, n ≠ 0 →
        (hashInt n.toUInt32).toBitVec = byteHash 0#32 (integerBytes 4 n.toInt)) ∧
      ∀ n : Int64, n ≠ 0 →
        (hashLong n.toUInt64).toBitVec = byteHash 0#32 (integerBytes 8 n.toInt) :=
  ⟨fun s => toBitVec_hashUnits (Text.units s), fun _ => toBitVec_hashInt,
    fun _ => toBitVec_hashLong⟩

/-- A text of three code units, two of them surrogates, and two negative integers. -/
theorem hash_eq_byteHash_negative :
    (hashUnits (Text.units "a😀")).toBitVec =
        byteHash 0#32 [0x61, 0x00, 0x3d, 0xd8, 0x00, 0xde] ∧
      (hashInt (-2 : Int32).toUInt32).toBitVec = byteHash 0#32 [0xfe, 0xff, 0xff, 0xff] ∧
      (hashLong (-2 : Int64).toUInt64).toBitVec =
        byteHash 0#32 [0xfe, 0xff, 0xff, 0xff, 0xff, 0xff, 0xff, 0xff] := by
  obtain ⟨texts, words, longs⟩ := hash_eq_byteHash
  exact ⟨texts "a😀", words (-2) (by decide), longs (-2) (by decide)⟩

end ValueCore.Murmur
