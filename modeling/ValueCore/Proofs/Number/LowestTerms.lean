import ValueCore.Proofs.Number.Exact
/-!
# Doubles in lowest terms

What 64 bits stand for is told by the format alone: `Double.datum` takes the sign, eleven bits
of exponent and fifty-two bits of fraction out of the word and gives a rational number, an
infinity or nothing.  A normal number is `(1 + fraction / 2 ^ 52) * 2 ^ (exponent - 1023)` with
the sign, and a subnormal one, zero included, is `fraction / 2 ^ 52 * 2 ^ -1022`.

`Double.parts` reads the same bits as an integer times a power of two, cancels what it can and
gives a fraction.  This is the number in lowest terms, and the denominator is a power of two
(`Double.parts_datum`).
-/

namespace ValueCore.Double

/-! ## The format -/

/-- What a double stands for. -/
inductive Datum where
  | nan
  | infinity (negative : Bool)
  | number (r : ℚ)

/-- The highest bit. -/
def signBit (x : Double) : Nat := x.bits.toNat / 2 ^ 63

/-- The eleven bits below it. -/
def exponentBits (x : Double) : Nat := x.bits.toNat / 2 ^ 52 % 2 ^ 11

/-- The fifty-two lowest bits. -/
def fractionBits (x : Double) : Nat := x.bits.toNat % 2 ^ 52

/-- The number of a sign, an exponent below the highest one, and a fraction. -/
def decode (sign exponent fraction : Nat) : ℚ :=
  (-1) ^ sign *
    if exponent = 0 then (fraction / 2 ^ 52 : ℚ) * 2 ^ (-1022 : Int)
    else (1 + fraction / 2 ^ 52 : ℚ) * 2 ^ ((exponent : Int) - 1023)

/-- What the bits stand for in the format. -/
def datum (x : Double) : Datum :=
  if x.exponentBits = 2047 then
    if x.fractionBits = 0 then .infinity (x.signBit = 1) else .nan
  else .number (decode x.signBit x.exponentBits x.fractionBits)

theorem exponentBits_eq (x : Double) : x.exponentBits = x.exponent := by
  have bound := x.bits.toNat_lt
  rw [exponentBits, exponent, magnitude]
  omega

theorem fractionBits_eq (x : Double) : x.fractionBits = x.fraction := by
  rw [fractionBits, fraction, magnitude]
  omega

/-- The sign is a factor. -/
theorem signed_eq (x : Double) (n : Nat) : (x.signed n : ℚ) = (-1) ^ x.signBit * n := by
  have bound := x.bits.toNat_lt
  by_cases minus : x.negative
  · have one : x.signBit = 1 := by
      simp only [negative, decide_eq_true_eq] at minus
      rw [signBit]
      omega
    simp [signed, minus, one]
  · have zero : x.signBit = 0 := by
      simp only [negative, decide_eq_true_eq] at minus
      rw [signBit]
      omega
    simp [signed, minus, zero]

/-- Mantissa and power make up the number of the format. -/
theorem value_eq_decode (x : Double) :
    x.value = decode x.signBit x.exponentBits x.fractionBits := by
  rw [value, signed_eq, mul_assoc, decode, exponentBits_eq, fractionBits_eq, power, mantissa]
  congr 1
  by_cases subnormal : x.exponent = 0
  · have place : ((max x.exponent 1 : Nat) - 1075 : Int) = -1022 - 52 := by omega
    rw [if_pos subnormal, if_pos subnormal, place, zpow_sub₀ two_ne_zero]
    ring
  · have place : ((max x.exponent 1 : Nat) - 1075 : Int) = x.exponent - 1023 - 52 := by omega
    rw [if_neg subnormal, if_neg subnormal, place, zpow_sub₀ two_ne_zero]
    push_cast
    ring

theorem datum_of_finite {x : Double} (finite : x.isFinite = true) : x.datum = .number x.value := by
  have below : x.exponent < 2047 := by simpa [isFinite] using finite
  rw [datum, if_neg (by rw [exponentBits_eq]; omega), value_eq_decode]

theorem datum_of_not_finite {x : Double} (infinite : x.isFinite = false) :
    x.datum = .nan ∨ ∃ s, x.datum = .infinity s := by
  have top : x.exponentBits = 2047 := by
    have bound := x.exponent_le
    have above : ¬ x.exponent < 2047 := by simpa [isFinite] using infinite
    rw [exponentBits_eq]
    omega
  rw [datum, if_pos top]
  split
  · exact Or.inr ⟨_, rfl⟩
  · exact Or.inl rfl

/-! ## The fraction -/

theorem exists_parts_of_finite {x : Double} (finite : x.isFinite = true) :
    ∃ p k, x.parts = some (p, 2 ^ k) := by
  rw [parts, if_pos finite]
  cases x.power with
  | ofNat e => exact ⟨_, 0, rfl⟩
  | negSucc e => exact ⟨_, _, rfl⟩

/-- A fraction in lowest terms is an integer only if its denominator is `1`. -/
theorem den_eq_one_iff {p : Int} {q : Nat} (positive : 0 < q) (coprime : Nat.Coprime p.natAbs q) :
    q = 1 ↔ ∃ z : Int, (p / q : ℚ) = z := by
  obtain ⟨num, den⟩ := Number.num_den_of_coprime positive coprime
  constructor
  · rintro rfl
    exact ⟨p, by simp⟩
  · rintro ⟨z, whole⟩
    rw [← den, whole, Rat.den_intCast]

/-- A double has parts unless it is a NaN or an infinity.  They are the number that the format
gives its bits, in lowest terms over a power of two, which is `1` just if the number is
integral. -/
theorem parts_datum (x : Double) :
    (x.parts = none ↔ x.datum = .nan ∨ ∃ s, x.datum = .infinity s) ∧
      ∀ r, x.datum = .number r → ∃ p k, x.parts = some (p, 2 ^ k) ∧
        Nat.Coprime p.natAbs (2 ^ k) ∧ (p : ℚ) / (2 ^ k : Nat) = r ∧
        (2 ^ k = 1 ↔ ∃ z : Int, r = z) := by
  cases finite : x.isFinite with
  | false =>
    have other := datum_of_not_finite finite
    have none : x.parts = none := by simpa [finite] using x.parts_isSome
    refine ⟨iff_of_true none other, fun r number => ?_⟩
    rw [number] at other
    rcases other with nan | ⟨s, infinity⟩
    · cases nan
    · cases infinity
  | true =>
    have here := datum_of_finite finite
    obtain ⟨p, k, parts⟩ := exists_parts_of_finite finite
    obtain ⟨positive, coprime, value⟩ := parts_eq_some parts
    refine ⟨iff_of_false (by simp [parts]) (by simp [here]), fun r number => ?_⟩
    rw [here, Datum.number.injEq] at number
    subst number
    exact ⟨p, k, parts, coprime, value.symm, by rw [value, den_eq_one_iff positive coprime]⟩

/-- The subnormal number `-6 * 2 ^ -1074`, of which one factor of two is cancelled. -/
theorem parts_datum_subnormal :
    let x : Double := ⟨0x8000000000000006⟩
    x.datum = .number (decode 1 0 6) ∧ x.parts = some (-3, 2 ^ 1073) ∧
      ((-3 : Int) : ℚ) / (2 ^ 1073 : Nat) = decode 1 0 6 := by
  intro x
  have sign : x.signBit = 1 := by decide +kernel
  have exponent : x.exponentBits = 0 := by decide +kernel
  have fraction : x.fractionBits = 6 := by decide +kernel
  have number : x.datum = .number (decode 1 0 6) := by
    rw [datum, sign, exponent, fraction, if_neg (by decide)]
  have terms : x.parts = some (-3, 2 ^ 1073) := by decide +kernel
  obtain ⟨p, k, parts, -, value, -⟩ := (parts_datum x).2 _ number
  rw [terms, Option.some.injEq, Prod.mk.injEq] at parts
  rw [← parts.1, ← parts.2] at value
  exact ⟨number, terms, value⟩

end ValueCore.Double
