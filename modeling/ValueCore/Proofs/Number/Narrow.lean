import Mathlib.Data.Int.ModEq
import Mathlib.Data.Rat.Floor
import ValueCore.Proofs.Number.Point
/-!
# Narrowing

A number that is used as a host integer of 32 bits is narrowed by its exact value.

*Integers* keep their residue modulo `2 ^ 32`, in either representation
(`Number.intValue_of_whole`).  A large negative one is narrowed from its magnitude, and the
sign is taken back in 32 bits.

*Doubles and ratios* are cut toward zero.  The cut is taken from the mantissa or from the terms,
and both come to the floor or the ceiling of the value (`Double.truncate_eq`,
`Number.towardZero_div`).  What is out of range ends at the nearer bound
(`Number.intValue_of_fraction`).
-/

namespace ValueCore

namespace Number

/-- The number is an integer in one of its two representations. -/
inductive Whole : Int → Number → Prop where
  | int (n : Int64) : Whole n.toInt (.int n)
  | big (id : Nat) (k : Int) : Whole k (.big id k)

/-- A rational without what is behind the point. -/
def towardZero (r : ℚ) : Int := if 0 ≤ r then ⌊r⌋ else ⌈r⌉

/-- The integer in the range of 32 bits that is nearest. -/
def nearest32 (k : Int) : Int := max (-2 ^ 31) (min k (2 ^ 31 - 1))

/-! ## Residues -/

/-- Two words with one residue modulo `2 ^ 32` are the same. -/
theorem eq_iff_modEq_of_toInt {a b : Int32} {k : Int} (ha : a.toInt ≡ k [ZMOD 2 ^ 32]) :
    b = a ↔ b.toInt ≡ k [ZMOD 2 ^ 32] := by
  constructor
  · intro same
    rw [same]
    exact ha
  · intro hb
    have residues : b.toInt ≡ a.toInt [ZMOD 2 ^ 32] := hb.trans ha.symm
    have lowA := a.le_toInt
    have highA := a.toInt_lt
    have lowB := b.le_toInt
    have highB := b.toInt_lt
    simp only [Int.ModEq] at residues
    apply Int32.toInt_inj.mp
    omega

theorem bmod_modEq (k : Int) : k.bmod (2 ^ 32) ≡ k [ZMOD 2 ^ 32] := by
  simp only [Int.ModEq, Int.bmod]
  omega

/-- The lowest digit of the magnitude, with the sign taken back, has the residue of the
integer. -/
theorem intValue_big_modEq (id : Nat) (k : Int) :
    (big id k).intValue.toInt ≡ k [ZMOD 2 ^ 32] := by
  have low : (Int32.ofNat (k.natAbs % 2 ^ 32)).toInt ≡ k.natAbs [ZMOD 2 ^ 32] := by
    rw [Int32.toInt_ofNat']
    refine (bmod_modEq _).trans ?_
    push_cast
    exact Int.mod_modEq _ _
  simp only [intValue]
  split
  · next negative =>
    rw [Int32.toInt_neg]
    refine (bmod_modEq _).trans ?_
    have sign : -(k.natAbs : Int) = k := by omega
    have back := low.neg
    rw [sign] at back
    exact back
  · next positive =>
    have sign : (k.natAbs : Int) = k := by omega
    rw [sign] at low
    exact low

theorem intValue_modEq {k : Int} {n : Number} (whole : Whole k n) :
    n.intValue.toInt ≡ k [ZMOD 2 ^ 32] := by
  cases whole with
  | int n =>
    rw [intValue, Int64.toInt_toInt32]
    exact bmod_modEq _
  | big id k => exact intValue_big_modEq id k

/-! ## Cutting toward zero -/

theorem towardZero_intCast (k : Int) : towardZero k = k := by
  rw [towardZero, Int.floor_intCast, Int.ceil_intCast, ite_self]

/-- Division of integers that cuts toward zero is the cut of the rational quotient. -/
theorem towardZero_div (p : Int) {q : Nat} (positive : 0 < q) :
    towardZero (p / q) = p.tdiv q := by
  have positive' : (0 : ℚ) < q := Nat.cast_pos.mpr positive
  have sign : (0 : ℚ) ≤ p / q ↔ 0 ≤ p := by
    rw [le_div_iff₀ positive', zero_mul, Int.cast_nonneg_iff]
  simp only [towardZero, sign]
  split
  · next above => rw [Rat.floor_intCast_div_natCast, Int.tdiv_eq_ediv_of_nonneg above]
  · next below =>
    have quotient := Int.tdiv_eq_ediv_of_nonneg (a := -p) (b := q) (by omega)
    rw [Int.neg_tdiv] at quotient
    rw [Rat.ceil_intCast_div_natCast, ← quotient, neg_neg]

end Number

namespace Double

theorem signed_div (x : Double) (m n : Nat) : x.signed (m / n) = (x.signed m).tdiv n := by
  simp only [signed]
  split
  · rw [Int.neg_tdiv]
    rfl
  · rfl

/-- The cut that reads mantissa and power is that of the value. -/
theorem truncate_eq (x : Double) : x.truncate = Number.towardZero x.value := by
  rw [truncate, wholePart, value]
  cases power : x.power with
  | ofNat e =>
    have whole : (x.signed x.mantissa * 2 ^ Int.ofNat e : ℚ) =
        (x.signed (x.mantissa * 2 ^ e) : Int) := by
      rw [signed_mul]
      simp
    rw [whole, Number.towardZero_intCast]
  | negSucc e =>
    have quotient : (x.signed x.mantissa * 2 ^ Int.negSucc e : ℚ) =
        x.signed x.mantissa / (2 ^ (e + 1) : Nat) := by
      rw [zpow_negSucc, ← div_eq_mul_inv, Nat.cast_pow, Nat.cast_ofNat]
    rw [quotient, Number.towardZero_div _ (Nat.two_pow_pos _), signed_div]

end Double

namespace Number

theorem toInt_clamp (k : Int) : (clamp k).toInt = nearest32 k := by
  rw [clamp, Int32.toInt_ofInt_of_le]
  · rfl
  · omega
  · omega

/-- A quotient out of range has the sign that decides on the bound. -/
theorem toInt_getD_int32? (k : Int) :
    ((int32? k).getD (if k < 0 then Int32.minValue else Int32.maxValue)).toInt =
      nearest32 k := by
  rw [int32?, nearest32]
  split
  · next inside =>
    simp only [Bool.and_eq_true, decide_eq_true_eq] at inside
    rw [Option.getD_some, Int32.toInt_ofInt_of_le (by omega) (by omega)]
    omega
  · next outside =>
    simp only [Bool.and_eq_true, decide_eq_true_eq, not_and, not_lt] at outside
    rw [Option.getD_none]
    split
    · next negative =>
      rw [Int32.toInt_minValue]
      omega
    · next positive =>
      rw [Int32.toInt_maxValue]
      omega

theorem intValue_of_fraction {n : Number} {r : ℚ} (broken : ∀ k, ¬Whole k n)
    (value : n.point? = some (Point.ofRat r)) :
    n.intValue.toInt = nearest32 (towardZero r) := by
  cases n with
  | int n => exact absurd (Whole.int n) (broken _)
  | big id k => exact absurd (Whole.big id k) (broken _)
  | float x =>
    cases finite : x.isFinite with
    | false =>
      have nan := Double.isNaN_of_point? value
      rw [point?, Double.point?_of_infinite finite nan, Option.some.injEq] at value
      split at value
      · exact absurd value (ne_of_lt (Point.bot_lt_ofRat r))
      · exact absurd value.symm (ne_of_lt (Point.ofRat_lt_top r))
    | true =>
      rw [point?, Double.point?_of_finite finite, Option.some.injEq, Point.ofRat_inj] at value
      rw [intValue, if_pos finite, toInt_clamp, Double.truncate_eq, value]
  | ratio id r' =>
    rw [point?, Option.some.injEq, Point.ofRat_inj] at value
    have positive : 0 < r'.den := Nat.lt_of_succ_lt r'.one_lt_den
    rw [intValue, toInt_getD_int32?, ← towardZero_div _ positive, value]

/-! ## The ends -/

/-- Only a double stands beyond the rationals. -/
theorem infinite_of_point {n : Number} {v : Point} (value : n.point? = some v)
    (beyond : ∀ r, v ≠ Point.ofRat r) :
    ∃ x, n = .float x ∧ x.isFinite = false ∧ v = if x.negative then ⊥ else ⊤ := by
  have float : ∃ x, n = .float x := by
    by_contra other
    obtain ⟨r, rational⟩ := point?_of_not_float (not_exists.mp other)
    rw [rational, Option.some.injEq] at value
    exact beyond r value.symm
  obtain ⟨x, float⟩ := float
  subst float
  have nan := Double.isNaN_of_point? value
  cases finite : x.isFinite with
  | true =>
    rw [point?, Double.point?_of_finite finite, Option.some.injEq] at value
    exact absurd value.symm (beyond _)
  | false =>
    rw [point?, Double.point?_of_infinite finite nan, Option.some.injEq] at value
    exact ⟨x, rfl, finite, value.symm⟩

/-- Beyond the rationals there are two ends, which go to the bounds of the range. -/
theorem intValue_of_end {n : Number} {v : Point} (value : n.point? = some v)
    (beyond : ∀ r, v ≠ Point.ofRat r) :
    v = ⊤ ∧ n.intValue = Int32.maxValue ∨ v = ⊥ ∧ n.intValue = Int32.minValue := by
  obtain ⟨x, float, infinite, side⟩ := infinite_of_point value beyond
  subst float
  have nan := Double.isNaN_of_point? value
  cases negative : x.negative with
  | true =>
    rw [negative] at side
    exact .inr ⟨side, by simp [intValue, infinite, nan, negative]⟩
  | false =>
    rw [negative] at side
    exact .inl ⟨side, by simp [intValue, infinite, nan, negative]⟩

theorem intValue_of_isNaN {n : Number} (nan : n.isNaN = true) : n.intValue = 0 := by
  cases n with
  | float x =>
    have infinite : x.isFinite = false := by
      rw [← Bool.not_eq_true]
      intro finite
      rw [isNaN, Double.isNaN_of_finite finite] at nan
      cases nan
    rw [isNaN] at nan
    simp [intValue, infinite, nan]
  | int n => cases nan
  | big id k => cases nan
  | ratio id r => cases nan

/-- A number is narrowed to 32 bits by its exact value.  An integer keeps its residue, whichever
representation it has; other finite numbers are cut toward zero and put into the range; the
infinities go to its bounds, and a NaN to zero. -/
theorem intValue_narrows (n : Number) :
    (∀ k, Whole k n →
      (∀ w : Int32, w = n.intValue ↔ w.toInt ≡ k [ZMOD 2 ^ 32]) ∧
      ∀ m, Whole k m → m.intValue = n.intValue) ∧
    (∀ r : ℚ, (∀ k, ¬Whole k n) → n.point? = some (Point.ofRat r) →
      n.intValue.toInt = nearest32 (towardZero r)) ∧
    (n.point? = some ⊤ → n.intValue.toInt = 2 ^ 31 - 1) ∧
    (n.point? = some ⊥ → n.intValue.toInt = -2 ^ 31) ∧
    (n.isNaN = true → n.intValue = 0) := by
  refine ⟨?_, ?_, ?_, ?_, intValue_of_isNaN⟩
  · intro k whole
    have residue : ∀ w, w = n.intValue ↔ w.toInt ≡ k [ZMOD 2 ^ 32] :=
      fun w => eq_iff_modEq_of_toInt (intValue_modEq whole)
    exact ⟨residue, fun m other => (residue m.intValue).mpr (intValue_modEq other)⟩
  · intro r broken value
    exact intValue_of_fraction broken value
  · intro value
    have beyond : ∀ r, (⊤ : Point) ≠ Point.ofRat r := fun r => ne_of_gt (Point.ofRat_lt_top r)
    rcases intValue_of_end value beyond with ⟨-, bound⟩ | ⟨other, -⟩
    · rw [bound, Int32.toInt_maxValue]
    · exact absurd other top_ne_bot
  · intro value
    have beyond : ∀ r, (⊥ : Point) ≠ Point.ofRat r := fun r => ne_of_lt (Point.bot_lt_ofRat r)
    rcases intValue_of_end value beyond with ⟨other, -⟩ | ⟨-, bound⟩
    · exact absurd other bot_ne_top
    · rw [bound, Int32.toInt_minValue]

/-- A large negative integer, the ratio `-7/2`, a double below `-2 ^ 31`, an infinity and a
NaN. -/
theorem intValue_narrows_ends :
    (big 0 (-1099511627781)).intValue = -5 ∧
      (ratio 0 ⟨-7, 2, by decide, by decide⟩).intValue.toInt = -3 ∧
      (float ⟨0xc1e0000000300000⟩).intValue.toInt = -2147483648 ∧
      (float ⟨0x7ff0000000000000⟩).intValue.toInt = 2147483647 ∧
      (float ⟨0xfff0000000000000⟩).intValue.toInt = -2147483648 ∧
      (float ⟨0x7ff8000000000000⟩).intValue = 0 := by
  have noRatio : ∀ k, ¬Whole k (ratio 0 ⟨-7, 2, by decide, by decide⟩) := by
    intro k whole
    cases whole
  have noFloat : ∀ k, ¬Whole k (float ⟨0xc1e0000000300000⟩) := by
    intro k whole
    cases whole
  have parts : (float ⟨0xc1e0000000300000⟩).parts = some (-4294967299, 2) := by decide +kernel
  have top : (float ⟨0x7ff0000000000000⟩).point? = some ⊤ :=
    Double.point?_of_infinite (by decide +kernel) (by decide +kernel)
  have bot : (float ⟨0xfff0000000000000⟩).point? = some ⊥ :=
    Double.point?_of_infinite (by decide +kernel) (by decide +kernel)
  have whole := (((intValue_narrows (big 0 (-1099511627781))).1 _ (.big 0 _)).1 (-5)).mpr
    (by decide)
  have ratio := (intValue_narrows (ratio 0 ⟨-7, 2, by decide, by decide⟩)).2.1 _ noRatio rfl
  have double := (intValue_narrows (float ⟨0xc1e0000000300000⟩)).2.1 _ noFloat
    (point?_of_parts parts).2.2
  rw [towardZero_div _ (by decide)] at ratio double
  refine ⟨whole.symm, ratio, double, ?_, ?_, ?_⟩
  · exact (intValue_narrows _).2.2.1 top
  · exact (intValue_narrows _).2.2.2.1 bot
  · exact (intValue_narrows _).2.2.2.2 (by decide +kernel)

end Number

end ValueCore
