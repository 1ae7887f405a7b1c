import Mathlib.Algebra.Order.Field.Power
import Mathlib.Algebra.Order.Field.Rat
import Mathlib.Data.Nat.Prime.Basic
import Mathlib.Data.Rat.Lemmas
import Mathlib.Tactic.Positivity
import Mathlib.Tactic.Ring
import ValueCore.Number.Double
/-!
# The value of a double

A finite double is an integral number of *steps* of `2 ^ -1074`, the least
positive double.  `Double.level` counts them with the sign, and `Double.value` is
the rational number.

Two facts carry everything that is said about doubles as numbers.

*Lowest terms.*  `Double.parts` is the value in lowest terms
(`Double.parts_eq_some`, `Double.value_eq_div`).  An integral double has
denominator `1` (`Double.parts_of_isIntegral`).

*Order.*  The number of steps grows strictly with the bits below the sign
(`Double.steps_lt_steps`).  So `Double.orderKey`, which only reads the bits,
orders doubles as their levels do (`Double.orderKey_lt_orderKey`).
-/

namespace ValueCore.Double

/-! ## Fields -/

theorem magnitude_lt (x : Double) : x.magnitude < 2 ^ 63 := Nat.mod_lt _ (by decide)

theorem fraction_lt (x : Double) : x.fraction < 2 ^ 52 := Nat.mod_lt _ (by decide)

/-- The exponent field stands above the fraction field. -/
theorem exponent_mul_add_fraction (x : Double) :
    x.exponent * 2 ^ 52 + x.fraction = x.magnitude := by
  rw [exponent, fraction, Nat.mul_comm]
  exact Nat.div_add_mod _ _

theorem exponent_le (x : Double) : x.exponent ≤ 2047 := by
  have fields := x.exponent_mul_add_fraction
  have bound := x.magnitude_lt
  omega

/-- A double that is neither finite nor a NaN has the least magnitude that is not
finite. -/
theorem magnitude_of_infinite {x : Double} (hfin : x.isFinite = false)
    (hnan : x.isNaN = false) : x.magnitude = 2047 * 2 ^ 52 := by
  have fields := x.exponent_mul_add_fraction
  have bound := x.exponent_le
  simp only [isFinite, decide_eq_false_iff_not] at hfin
  have top : x.exponent = 2047 := by omega
  have empty : x.fraction = 0 := by simpa [isNaN, top] using hnan
  rw [← fields, top, empty, Nat.add_zero]

theorem magnitude_of_finite {x : Double} (hfin : x.isFinite = true) :
    x.magnitude < 2047 * 2 ^ 52 := by
  have fields := x.exponent_mul_add_fraction
  have bound := x.fraction_lt
  have below : x.exponent < 2047 := by simpa [isFinite] using hfin
  omega

theorem isNaN_of_finite {x : Double} (hfin : x.isFinite = true) : x.isNaN = false := by
  have below : x.exponent < 2047 := by simpa [isFinite] using hfin
  have different : x.exponent ≠ 2047 := by omega
  simp [isNaN, different]

/-- Sign and magnitude make up the bits. -/
theorem eq_of_magnitude {x y : Double} (hs : x.negative = y.negative)
    (hm : x.magnitude = y.magnitude) : x = y := by
  have hx := x.bits.toNat_lt
  have hy := y.bits.toNat_lt
  have same : x.bits.toNat = y.bits.toNat := by
    simp only [negative, decide_eq_decide, magnitude] at hs hm
    omega
  cases x
  cases y
  simpa [UInt64.toNat_inj] using same

/-! ## Steps -/

/-- The magnitude of a finite double in units of `2 ^ -1074`. -/
def steps (x : Double) : Nat := x.mantissa * 2 ^ (max x.exponent 1 - 1)

/-- The steps with the sign. -/
def level (x : Double) : Int := x.signed x.steps

/-- The value of a finite double. -/
def value (x : Double) : ℚ := x.signed x.mantissa * 2 ^ x.power

/-- A larger exponent outweighs any fraction. -/
theorem steps_lt_of_exponent_lt {x y : Double} (h : x.exponent < y.exponent) :
    x.steps < y.steps := by
  have bound := x.fraction_lt
  have positive : y.exponent ≠ 0 := by omega
  have below : x.steps < 2 ^ 52 * 2 ^ x.exponent := by
    simp only [steps, mantissa]
    split
    · next zero => simpa [zero] using bound
    · next nonzero =>
      have exponents : max x.exponent 1 - 1 + 1 = x.exponent := by omega
      calc (x.fraction + 2 ^ 52) * 2 ^ (max x.exponent 1 - 1)
          < (2 ^ 52 * 2) * 2 ^ (max x.exponent 1 - 1) :=
            Nat.mul_lt_mul_of_pos_right (by omega) (Nat.two_pow_pos _)
        _ = 2 ^ 52 * 2 ^ (max x.exponent 1 - 1 + 1) := by rw [Nat.pow_succ]; ring
        _ = 2 ^ 52 * 2 ^ x.exponent := by rw [exponents]
  have above : 2 ^ 52 * 2 ^ x.exponent ≤ y.steps := by
    simp only [steps, mantissa, positive, if_false]
    exact Nat.mul_le_mul (by omega) (Nat.pow_le_pow_right (by decide) (by omega))
  exact Nat.lt_of_lt_of_le below above

/-- Steps grow strictly with the bits below the sign. -/
theorem steps_lt_steps {x y : Double} (h : x.magnitude < y.magnitude) :
    x.steps < y.steps := by
  have fx := x.exponent_mul_add_fraction
  have fy := y.exponent_mul_add_fraction
  have bx := x.fraction_lt
  have b_y := y.fraction_lt
  rcases Nat.lt_or_ge x.exponent y.exponent with higher | same
  · exact steps_lt_of_exponent_lt higher
  · have equal : x.exponent = y.exponent := by omega
    have fractions : x.fraction < y.fraction := by omega
    simp only [steps, mantissa, equal]
    refine Nat.mul_lt_mul_of_pos_right ?_ (Nat.two_pow_pos _)
    split
    · exact fractions
    · exact Nat.add_lt_add_right fractions _

theorem steps_eq_steps {x y : Double} (h : x.magnitude = y.magnitude) :
    x.steps = y.steps := by
  have exponents : x.exponent = y.exponent := by rw [exponent, exponent, h]
  have fractions : x.fraction = y.fraction := by rw [fraction, fraction, h]
  rw [steps, steps, mantissa, mantissa, exponents, fractions]

theorem steps_lt_iff {x y : Double} : x.steps < y.steps ↔ x.magnitude < y.magnitude := by
  constructor
  · intro h
    rcases Nat.lt_trichotomy x.magnitude y.magnitude with lt | eq | gt
    · exact lt
    · exact absurd (steps_eq_steps eq) (Nat.ne_of_lt h)
    · exact absurd (steps_lt_steps gt) (Nat.lt_asymm h)
  · exact steps_lt_steps

theorem steps_eq_zero_iff {x : Double} : x.steps = 0 ↔ x.magnitude = 0 := by
  have fields := x.exponent_mul_add_fraction
  have power := Nat.two_pow_pos (max x.exponent 1 - 1)
  constructor
  · intro h
    have none : x.mantissa = 0 := by
      rcases Nat.mul_eq_zero.mp h with m | p
      · exact m
      · exact absurd p (Nat.ne_of_gt power)
    simp only [mantissa] at none
    split at none <;> omega
  · intro h
    have mantissa : x.mantissa = 0 := by
      simp only [mantissa]
      split <;> omega
    rw [steps, mantissa, Nat.zero_mul]

theorem level_of_isZero {x : Double} (zero : x.isZero = true) : x.level = 0 := by
  have steps : x.steps = 0 := steps_eq_zero_iff.mpr (by simpa [isZero] using zero)
  simp [level, signed, steps]

/-- The key that only reads the bits orders doubles as their levels do. -/
theorem orderKey_lt_orderKey {x y : Double} : x.orderKey < y.orderKey ↔ x.level < y.level := by
  have xy := @steps_lt_iff x y
  have yx := @steps_lt_iff y x
  have zx := @steps_eq_zero_iff x
  have zy := @steps_eq_zero_iff y
  simp only [orderKey, level, signed]
  split <;> split <;> omega

/-! ## Lowest terms -/

theorem signed_mul (x : Double) (m n : Nat) : x.signed (m * n) = x.signed m * n := by
  rw [signed, signed]
  split <;> push_cast <;> ring

theorem natAbs_signed (x : Double) (n : Nat) : (x.signed n).natAbs = n := by
  rw [signed]
  split <;> simp

/-- What is left after cancelling is in proportion to what there was, and not both
terms are even. -/
theorem cancelTwos_spec (m k : Nat) :
    (cancelTwos m k).2 ≤ k ∧ (cancelTwos m k).1 * 2 ^ k = m * 2 ^ (cancelTwos m k).2 ∧
      ((cancelTwos m k).2 = 0 ∨ (cancelTwos m k).1 % 2 = 1) := by
  induction k generalizing m with
  | zero => simp [cancelTwos]
  | succ k ih =>
    by_cases even : m % 2 = 0
    · obtain ⟨le, proportion, odd⟩ := ih (m / 2)
      have half : m / 2 * 2 = m := by omega
      simp only [cancelTwos, even, if_true]
      refine ⟨by omega, ?_, odd⟩
      calc (cancelTwos (m / 2) k).1 * 2 ^ (k + 1)
          = (cancelTwos (m / 2) k).1 * 2 ^ k * 2 := by ring
        _ = m / 2 * 2 ^ (cancelTwos (m / 2) k).2 * 2 := by rw [proportion]
        _ = m / 2 * 2 * 2 ^ (cancelTwos (m / 2) k).2 := by ring
        _ = m * 2 ^ (cancelTwos (m / 2) k).2 := by rw [half]
    · simp only [cancelTwos, even, if_false]
      exact ⟨Nat.le_refl _, trivial, Or.inr (by omega)⟩

/-- An integral double has nothing left of its power of two. -/
theorem cancelTwos_of_dvd {m k : Nat} (h : m % 2 ^ k = 0) : cancelTwos m k = (m / 2 ^ k, 0) := by
  induction k generalizing m with
  | zero => simp [cancelTwos]
  | succ k ih =>
    rw [Nat.pow_succ', Nat.mod_mul] at h
    have even : m % 2 = 0 := by omega
    have rest : m / 2 % 2 ^ k = 0 := by omega
    rw [cancelTwos, if_pos even, ih rest, Nat.div_div_eq_div_mul, ← Nat.pow_succ']

theorem parts_isSome (x : Double) : x.parts.isSome = x.isFinite := by
  rw [parts]
  split
  · next finite =>
    rw [finite]
    split <;> rfl
  · next infinite => simpa using infinite

theorem parts_of_isIntegral {x : Double} (hfin : x.isFinite = true)
    (h : x.isIntegral = true) : x.parts = some (x.truncate, 1) := by
  rw [parts, if_pos hfin, truncate, wholePart]
  rw [isIntegral] at h
  cases hp : x.power with
  | ofNat e => rfl
  | negSucc e =>
    rw [hp] at h
    simp only [cancelTwos_of_dvd (by simpa using h), Nat.pow_zero]

/-- The value counts levels of `2 ^ -1074`. -/
theorem value_eq_level (x : Double) : x.value = x.level * 2 ^ (-1074 : Int) := by
  have exponents : x.power = (max x.exponent 1 - 1 : Nat) + (-1074 : Int) := by
    rw [power]
    omega
  rw [value, exponents, zpow_add₀ (by decide), ← mul_assoc, zpow_natCast, level, steps,
    signed_mul, Int.cast_mul, Int.cast_natCast, Nat.cast_pow, Nat.cast_ofNat]

theorem value_lt_value {x y : Double} : x.value < y.value ↔ x.level < y.level := by
  rw [value_eq_level, value_eq_level, mul_lt_mul_iff_left₀ (by positivity), Int.cast_lt]

/-- The parts are the value in lowest terms. -/
theorem parts_eq_some {x : Double} {p : Int} {q : Nat} (h : x.parts = some (p, q)) :
    0 < q ∧ Nat.Coprime p.natAbs q ∧ x.value = p / q := by
  rw [parts] at h
  split at h
  · split at h
    · next e whole =>
      simp only [Option.some.injEq, Prod.mk.injEq] at h
      obtain ⟨rfl, rfl⟩ := h
      refine ⟨Nat.one_pos, Nat.coprime_one_right _, ?_⟩
      rw [value, whole, signed_mul]
      simp
    · next e broken =>
      simp only [Option.some.injEq, Prod.mk.injEq] at h
      obtain ⟨rfl, rfl⟩ := h
      obtain ⟨le, proportion, odd⟩ := cancelTwos_spec x.mantissa (e + 1)
      refine ⟨Nat.two_pow_pos _, ?_, ?_⟩
      · rw [natAbs_signed]
        rcases odd with zero | odd
        · rw [zero]
          exact Nat.coprime_one_right _
        · exact Nat.Coprime.pow_right _ (Nat.coprime_two_right.mpr (Nat.odd_iff.mpr odd))
      · have crossed : (x.signed (cancelTwos x.mantissa (e + 1)).1 : ℚ) * 2 ^ (e + 1) =
            x.signed x.mantissa * 2 ^ (cancelTwos x.mantissa (e + 1)).2 := by
          have signedProportion := congrArg x.signed proportion
          rw [signed_mul, signed_mul] at signedProportion
          exact_mod_cast signedProportion
        rw [value, broken, zpow_negSucc, ← div_eq_mul_inv]
        push_cast
        rw [div_eq_div_iff (by positivity) (by positivity)]
        exact crossed.symm
  · cases h

end ValueCore.Double
