import Mathlib.Data.Nat.Digits.Defs
import Mathlib.Data.Sign.Basic
import ValueCore.Proofs.Number.Point
/-!
# Exactness

Numbers are compared and hashed by their exact values alone.

*Comparison.*  The answer is the sign of the difference of the values.  The infinities lie
beyond all rationals, the zeros are one value, and a NaN has none
(`Number.compare_follows_value`).

*Hash.*  The value hash is computed in different ways for the representations, and for a
double in four ways by its size and its fraction.  All of them give `exactHash` of the value,
which reads nothing but the lowest terms (`Number.hashEq_of_value`).
-/

namespace ValueCore

namespace Number

/-! ## The order of values -/

/-- Between rationals, the order of two points is the sign of the difference. -/
theorem sign_ofRat_sub (p r : ℚ) :
    Point.sign (Point.ofRat p) (Point.ofRat r) = (SignType.sign (p - r) : Int) := by
  rcases lt_trichotomy p r with lt | rfl | gt
  · simp [Point.sign, Point.ofRat_lt, lt, sign_neg (sub_neg.mpr lt)]
  · simp [Point.sign]
  · simp [Point.sign, Point.ofRat_lt, gt, not_lt_of_gt gt, sign_pos (sub_pos.mpr gt)]

theorem point?_of_isZero {x : Double} (zero : x.isZero = true) :
    (float x).point? = some (Point.ofRat 0) := by
  have magnitude : x.magnitude = 0 := by simpa [Double.isZero] using zero
  have finite : x.isFinite = true := by
    simp [Double.isFinite, Double.exponent, magnitude]
  rw [point?, Double.point?_of_finite finite, Double.value_eq_level,
    Double.level_of_isZero zero, Int.cast_zero, zero_mul]

theorem equal_of_point {a b : Number} {v w : Point} (hv : a.point? = some v)
    (hw : b.point? = some w) : a.equal b = true ↔ v = w := by
  rw [equal_iff, hv, hw]
  simp [eq_comm]

theorem equal_of_isNaN {a b : Number} (nan : a.isNaN = true ∨ b.isNaN = true) :
    a.equal b = false := by
  rw [← Bool.not_eq_true, equal_iff]
  intro same
  obtain ⟨v, hv, hw⟩ := same
  rcases nan with nan | nan
  · rw [point?_eq_none_iff.mpr nan] at hv
    cases hv
  · rw [point?_eq_none_iff.mpr nan] at hw
    cases hw

/-- Numbers are compared by their exact values.  A NaN has none: it is equal to nothing and
compares as `0`. -/
theorem compare_follows_value (a b : Number) :
    (a.isNaN = false → b.isNaN = false →
      ∃ v w, a.point? = some v ∧ b.point? = some w ∧
        a.compare b = Point.sign v w ∧
        (a.equal b = true ↔ v = w) ∧
        (a.equal b = true ↔ a.compare b = 0)) ∧
    (∀ p r : ℚ, a.point? = some (Point.ofRat p) → b.point? = some (Point.ofRat r) →
      a.compare b = (SignType.sign (p - r) : Int)) ∧
    (∀ x : Double, a = .float x →
      (x.isZero = true → a.point? = some (Point.ofRat 0)) ∧
      (x.isFinite = true → a.point? = some (Point.ofRat (x.signed x.mantissa * 2 ^ x.power))) ∧
      (x.isFinite = false → x.isNaN = false → a.point? = some (if x.negative then ⊥ else ⊤))) ∧
    (a.isNaN = true ∨ b.isNaN = true → a.equal b = false ∧ a.compare b = 0) := by
  refine ⟨?_, ?_, ?_, ?_⟩
  · intro left right
    obtain ⟨v, hv⟩ := exists_point left
    obtain ⟨w, hw⟩ := exists_point right
    have order := compare_of_point hv hw
    have same := equal_of_point hv hw
    exact ⟨v, w, hv, hw, order, same, by rw [same, order, Point.sign_eq_zero]⟩
  · intro p r hp hr
    rw [compare_of_point hp hr, sign_ofRat_sub]
  · intro x float
    subst float
    exact ⟨point?_of_isZero, Double.point?_of_finite, Double.point?_of_infinite⟩
  · intro nan
    have order : a.compare b = 0 := by
      rcases nan with nan | nan
      · exact (compare_of_isNaN nan).1
      · exact (compare_of_isNaN nan).2
    exact ⟨equal_of_isNaN nan, order⟩

/-- The integer `2 ^ 53 + 1` next to the double `2 ^ 53`, and next to a NaN. -/
theorem compare_follows_value_large :
    (int 9007199254740993).compare (float ⟨0x4340000000000000⟩) = 1 ∧
      (int 9007199254740993).equal (float ⟨0x7ff8000000000000⟩) = false ∧
      (int 9007199254740993).compare (float ⟨0x7ff8000000000000⟩) = 0 := by
  have value : (float ⟨0x4340000000000000⟩).parts = some (9007199254740992, 1) := by decide +kernel
  have order := (compare_follows_value (int 9007199254740993) (float ⟨0x4340000000000000⟩)).2.1
    9007199254740993 (9007199254740992 / 1) rfl (point?_of_parts value).2.2
  have nan := (compare_follows_value (int 9007199254740993) (float ⟨0x7ff8000000000000⟩)).2.2.2
    (Or.inr (by decide +kernel))
  exact ⟨by rw [order, sign_pos (by norm_num)]; rfl, nan⟩

/-! ## The hash of a value -/

/-- The polynomial in `31` over the digits of a natural number to the base `2 ^ 32`, most
significant first. -/
def digitPolynomial (n : Nat) : UInt32 :=
  (Nat.digits (2 ^ 32) n).foldr (fun digit h => h * 31 + digit.toUInt32) 0

/-- The hash of an integer: that of its word if it fits into 64 bits, or else the polynomial of
its magnitude with its sign. -/
def wholeHash (k : Int) : UInt32 :=
  if -2 ^ 63 ≤ k ∧ k < 2 ^ 63 then Murmur.hashLong (Int64.ofInt k).toUInt64
  else if k < 0 then -digitPolynomial k.natAbs
  else digitPolynomial k.natAbs

/-- The hash of a rational by its lowest terms. -/
def exactHash (r : ℚ) : UInt32 :=
  if r.den = 1 then wholeHash r.num else wholeHash r.num ^^^ wholeHash r.den

theorem digitHash_eq (n : Nat) : digitHash n = digitPolynomial n := by
  induction n using Nat.strongRecOn with
  | ind n ih =>
    rw [digitHash, digitPolynomial]
    split
    · next zero => simp [zero]
    · next nonzero =>
      have smaller : n / 2 ^ 32 < n := Nat.div_lt_self (Nat.pos_of_ne_zero nonzero) (by decide)
      have digits := Nat.digits_def' (b := 2 ^ 32) (by decide) (Nat.pos_of_ne_zero nonzero)
      have low : (n % 2 ^ 32).toUInt32 = n.toUInt32 := UInt32.toNat_inj.mp (by simp)
      rw [digits, List.foldr_cons, ih _ smaller, digitPolynomial, low]

theorem integerHash_eq (k : Int) : integerHash k = wholeHash k := by
  have same : fits k = true ↔ -2 ^ 63 ≤ k ∧ k < 2 ^ 63 := by
    simp [fits]
  simp only [integerHash, wholeHash, bigHash, same, digitHash_eq]

theorem fractionHash_eq (r : ℚ) : fractionHash r.num r.den = exactHash r := by
  rw [fractionHash, exactHash, integerHash_eq, integerHash_eq]

/-- A rational number has only one numerator and denominator without a common divisor. -/
theorem num_den_of_coprime {p : Int} {q : Nat} (positive : 0 < q)
    (coprime : Nat.Coprime p.natAbs q) : (p / q : ℚ).num = p ∧ (p / q : ℚ).den = q := by
  have positive' : (0 : Int) < q := Int.natCast_pos.mpr positive
  have num : ((p : ℚ) / (q : Int)).num = p := Rat.num_div_eq_of_coprime positive' coprime
  have den : (((p : ℚ) / (q : Int)).den : Int) = q := Rat.den_div_eq_of_coprime positive' coprime
  rw [Int.cast_natCast] at num den
  exact ⟨num, Int.ofNat_inj.mp den⟩

/-- A finite number has a rational value, and its parts are the lowest terms. -/
theorem exists_lowest_terms {n : Number} (finite : ∀ x, n = .float x → x.isFinite = true) :
    ∃ r : ℚ, n.point? = some (Point.ofRat r) ∧ n.parts = some (r.num, r.den) := by
  cases parts : n.parts with
  | none =>
    obtain ⟨x, rfl, infinite⟩ := of_parts_none parts
    rw [finite x rfl] at infinite
    cases infinite
  | some terms =>
    obtain ⟨p, q⟩ := terms
    obtain ⟨positive, coprime, value⟩ := point?_of_parts parts
    obtain ⟨num, den⟩ := num_den_of_coprime positive coprime
    exact ⟨p / q, value, by rw [num, den]⟩

/-- The value hash of a finite number reads nothing but the lowest terms of its value.  For a
double, the shortcuts lead to what the fraction gives. -/
theorem hashEq_of_value (n : Number) (finite : ∀ x, n = .float x → x.isFinite = true) :
    ∃ r : ℚ, n.point? = some (Point.ofRat r) ∧ n.hashEq = exactHash r ∧
      n.parts = some (r.num, r.den) ∧ n.hashEq = fractionHash r.num r.den ∧
      ∀ x, n = .float x →
        (x.isZero = true → exactHash r = 0) ∧
        (x.isIntegral = true → fits x.truncate = true →
          exactHash r = Murmur.hashLong (Int64.ofInt x.truncate).toUInt64) := by
  obtain ⟨r, value, terms⟩ := exists_lowest_terms finite
  have hash : n.hashEq = exactHash r := by rw [hashEq_of_parts terms, fractionHash_eq]
  refine ⟨r, value, hash, terms, hashEq_of_parts terms, ?_⟩
  intro x float
  subst float
  constructor
  · intro zero
    rw [← hash, hashEq, floatHash, if_pos zero]
  · intro integral small
    rw [parts, Double.parts_of_isIntegral (finite x rfl) integral, Option.some.injEq,
      Prod.mk.injEq] at terms
    rw [exactHash, if_pos terms.2.symm, ← terms.1, ← integerHash_eq, integerHash, if_pos small]

/-- A double with a fraction, and the double `2 ^ 64`, which fits no word. -/
theorem hashEq_of_value_dyadic :
    (float ⟨0xbfd8000000000000⟩).hashEq = wholeHash (-3) ^^^ wholeHash 8 ∧
      (float ⟨0x43f0000000000000⟩).hashEq = digitPolynomial (2 ^ 64) := by
  have finite : ∀ x, float ⟨0xbfd8000000000000⟩ = .float x → x.isFinite = true := by
    intro x same
    cases same
    decide +kernel
  have finite' : ∀ x, float ⟨0x43f0000000000000⟩ = .float x → x.isFinite = true := by
    intro x same
    cases same
    decide +kernel
  have dyadic : (float ⟨0xbfd8000000000000⟩).parts = some (-3, 8) := by decide +kernel
  have whole : (float ⟨0x43f0000000000000⟩).parts = some (2 ^ 64, 1) := by decide +kernel
  obtain ⟨r, -, hash, terms, -⟩ := hashEq_of_value (float ⟨0xbfd8000000000000⟩) finite
  obtain ⟨s, -, hash', terms', -⟩ := hashEq_of_value (float ⟨0x43f0000000000000⟩) finite'
  rw [dyadic, Option.some.injEq, Prod.mk.injEq] at terms
  rw [whole, Option.some.injEq, Prod.mk.injEq] at terms'
  constructor
  · rw [hash, exactHash, ← terms.1, ← terms.2]
    rfl
  · rw [hash', exactHash, ← terms'.1, ← terms'.2]
    rfl

end Number

end ValueCore
