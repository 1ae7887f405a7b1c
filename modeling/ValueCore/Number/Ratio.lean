/-!
# Ratios

A ratio is a fraction in lowest terms that is not an integer.  `reduce` brings any
fraction to lowest terms with a positive denominator.  It divides both terms by
their greatest common divisor, found by repeated remainders, and then moves the sign
to the numerator.  It fails only for a zero denominator, and a result with
denominator `1` is no ratio.
-/

namespace ValueCore

/-- A fraction in lowest terms that is not an integer. -/
structure Ratio where
  /-- The numerator, with the sign. -/
  num : Int
  /-- The denominator. -/
  den : Nat
  /-- An integral value is held as an integer. -/
  one_lt_den : 1 < den
  /-- The terms are lowest. -/
  coprime : Nat.Coprime num.natAbs den
deriving DecidableEq

namespace Ratio

/-- The greatest common divisor by repeated remainders.  Two zeros count as having `1`. -/
def commonDivisor (a b : Nat) : Nat :=
  if b = 0 then if a = 0 then 1 else a
  else commonDivisor b (a % b)
termination_by b
decreasing_by exact Nat.mod_lt a (Nat.pos_of_ne_zero ‹_›)

/-- `n / d` in lowest terms with a positive denominator, or nothing if `d = 0`. -/
def reduce (n d : Int) : Option (Int × Nat) :=
  if d = 0 then none
  else
    let g := commonDivisor n.natAbs d.natAbs
    let p := n.tdiv g
    let q := d.tdiv g
    some (if q < 0 then (-p, (-q).toNat) else (p, q.toNat))

/-- The numerator over the denominator. -/
def text (r : Ratio) : String := toString r.num ++ "/" ++ toString r.den

/-- The remainders of two numbers that are not both zero end in their greatest common
divisor. -/
theorem commonDivisor_eq_gcd {a b : Nat} (nonzero : a ≠ 0 ∨ b ≠ 0) :
    commonDivisor a b = Nat.gcd a b := by
  induction a, b using commonDivisor.induct with
  | case1 => exact absurd nonzero (by simp)
  | case2 a positive => rw [commonDivisor, if_pos rfl, if_neg positive, Nat.gcd_zero_right]
  | case3 a b positive ih =>
    rw [commonDivisor, if_neg positive, ih (.inl positive), Nat.gcd_comm b, ← Nat.gcd_rec,
      Nat.gcd_comm]

/-- The quotients of both terms by their common divisor have none, and their ratio is the
same. -/
theorem coprime_quotients (n : Int) {d : Int} (nonzero : d ≠ 0) :
    let g := commonDivisor n.natAbs d.natAbs
    Nat.Coprime (n.tdiv g).natAbs (d.tdiv g).natAbs ∧ d.tdiv g ≠ 0 ∧
      n.tdiv g * d = n * d.tdiv g := by
  intro g
  have gcd : g = Int.gcd n d := commonDivisor_eq_gcd (.inr (Int.natAbs_ne_zero.mpr nonzero))
  have positive : 0 < Int.gcd n d := Int.gcd_pos_of_ne_zero_right n nonzero
  have left : n.tdiv g * g = n := by
    rw [gcd]
    exact Int.tdiv_mul_cancel (Int.gcd_dvd_left n d)
  have right : d.tdiv g * g = d := by
    rw [gcd]
    exact Int.tdiv_mul_cancel (Int.gcd_dvd_right n d)
  refine ⟨?_, ?_, ?_⟩
  · rw [Int.natAbs_tdiv, Int.natAbs_tdiv, Int.natAbs_natCast, gcd]
    exact Nat.coprime_div_gcd_div_gcd positive
  · intro zero
    rw [zero, Int.zero_mul] at right
    exact nonzero right.symm
  · calc n.tdiv g * d = n.tdiv g * (d.tdiv g * g) := by rw [right]
      _ = n.tdiv g * g * d.tdiv g := by rw [Int.mul_comm (d.tdiv g), Int.mul_assoc]
      _ = n * d.tdiv g := by rw [left]

/-- A reduced fraction has a positive denominator, lowest terms and the same value. -/
theorem reduce_spec {n d : Int} {p : Int} {q : Nat} (h : reduce n d = some (p, q)) :
    0 < q ∧ Nat.Coprime p.natAbs q ∧ p * d = n * q := by
  rw [reduce] at h
  split at h
  · cases h
  · next nonzero =>
    simp only [Option.some.injEq] at h
    obtain ⟨coprime, nonzero', same⟩ := coprime_quotients n nonzero
    -- From here on the quotients differ from the terms only by the sign.
    generalize n.tdiv (commonDivisor n.natAbs d.natAbs) = p' at h coprime same
    generalize d.tdiv (commonDivisor n.natAbs d.natAbs) = q' at h coprime nonzero' same
    split at h
    · next negative =>
      cases h
      have turned : ((-q').toNat : Int) = -q' := Int.toNat_of_nonneg (by omega)
      have magnitude : (-q').toNat = q'.natAbs := by omega
      refine ⟨by omega, ?_, ?_⟩
      · rw [magnitude, Int.natAbs_neg]
        exact coprime
      · rw [turned, Int.neg_mul, same, Int.mul_neg]
    · next positive =>
      cases h
      have kept : (q'.toNat : Int) = q' := Int.toNat_of_nonneg (by omega)
      have magnitude : q'.toNat = q'.natAbs := by omega
      refine ⟨by omega, ?_, ?_⟩
      · rw [magnitude]
        exact coprime
      · rw [kept]
        exact same

theorem coprime_reduce {n d : Int} {p : Int} {q : Nat} (h : reduce n d = some (p, q)) :
    Nat.Coprime p.natAbs q :=
  (reduce_spec h).2.1

example : reduce 4 (-6) = some (-2, 3) := by decide +kernel
example : reduce 0 5 = some (0, 1) := by decide +kernel
example : reduce 1 0 = none := by decide

end Ratio

end ValueCore
