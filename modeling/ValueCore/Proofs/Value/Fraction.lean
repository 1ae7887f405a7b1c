import ValueCore.Proofs.Number.Exact
import ValueCore.Value.Build
/-!
# Fractions

All fractions of one value become the same number (`Value.fraction_canonical`).  They reduce to
the same terms, which are those of a rational number (`Ratio.reduce_eq_some`), and the terms alone
decide how the number is represented (`Number.Canonical`): by a word if they are those of an
integer of 64 bits, by a large integer if they are those of another integer, and by a ratio if they
are not those of an integer.  So ratios may be compared and hashed by their terms.
-/

namespace ValueCore

/-! ## Lowest terms -/

namespace Ratio

variable {n d m e : Int}

theorem reduce_eq_none_iff : reduce n d = none ↔ d = 0 := by
  rw [reduce]
  split
  · next zero => exact iff_of_true rfl zero
  · next nonzero => exact iff_of_false (Option.some_ne_none _) nonzero

theorem exists_reduce (n : Int) (nonzero : d ≠ 0) : ∃ p q, reduce n d = some (p, q) := by
  cases reduced : reduce n d with
  | none => exact absurd (reduce_eq_none_iff.mp reduced) nonzero
  | some terms => exact ⟨terms.1, terms.2, rfl⟩

/-- Reducing gives the terms of the quotient. -/
theorem reduce_eq_some (nonzero : d ≠ 0) :
    reduce n d = some ((n / d : ℚ).num, (n / d : ℚ).den) := by
  obtain ⟨p, q, terms⟩ := exists_reduce n nonzero
  obtain ⟨positive, coprime, same⟩ := reduce_spec terms
  have denominator : (d : ℚ) ≠ 0 := Int.cast_ne_zero.mpr nonzero
  have denominator' : (q : ℚ) ≠ 0 := Nat.cast_ne_zero.mpr (Nat.ne_of_gt positive)
  have value : (n / d : ℚ) = p / q := by
    rw [div_eq_div_iff denominator denominator']
    exact_mod_cast same.symm
  obtain ⟨num, den⟩ := Number.num_den_of_coprime positive coprime
  rw [terms, value, num, den]

/-- Two fractions reduce to the same terms if they have the same value. -/
theorem reduce_eq_reduce_iff (hd : d ≠ 0) (he : e ≠ 0) :
    reduce n d = reduce m e ↔ n * e = m * d := by
  have terms : reduce n d = reduce m e ↔ (n / d : ℚ) = m / e := by
    rw [reduce_eq_some hd, reduce_eq_some he, Option.some.injEq, Prod.mk.injEq]
    constructor
    · rintro ⟨num, den⟩
      exact Rat.ext num den
    · intro same
      rw [same]
      exact ⟨rfl, rfl⟩
  rw [terms, div_eq_div_iff (Int.cast_ne_zero.mpr hd) (Int.cast_ne_zero.mpr he)]
  norm_cast

end Ratio

/-! ## Representations -/

namespace Number

/-- The number in an allocation that stands for lowest terms. -/
inductive Canonical (id : Nat) : Int → Nat → Number → Prop where
  /-- An integer that has 64 bits. -/
  | int {k : Int64} : Canonical id k.toInt 1 (.int k)
  /-- An integer that has more. -/
  | big {p : Int} (large : ∀ k : Int64, k.toInt ≠ p) : Canonical id p 1 (.big id p)
  /-- A denominator greater than `1`. -/
  | ratio {r : Ratio} : Canonical id r.num r.den (.ratio id r)

variable {n d p r : Int} {q s i j : Nat} {x y : Number}

theorem fits_iff : fits p = true ↔ ∃ k : Int64, k.toInt = p := by
  constructor
  · intro small
    simp only [fits, Bool.and_eq_true, decide_eq_true_eq] at small
    exact ⟨Int64.ofInt p, Int64.toInt_ofInt_of_le small.1 small.2⟩
  · rintro ⟨k, rfl⟩
    exact fits_toInt k

theorem ofFraction_eq_none (none : Ratio.reduce n d = none) : ofFraction i n d = Option.none := by
  rw [ofFraction]
  split
  · rfl
  · next terms => rw [none] at terms; cases terms

theorem exists_ofFraction (terms : Ratio.reduce n d = some (p, q)) (id : Nat) :
    ∃ x, ofFraction id n d = some x ∧ Canonical id p q x := by
  rw [ofFraction]
  split
  · next none => rw [terms] at none; cases none
  · next p' q' terms' =>
    rw [terms, Option.some.injEq, Prod.mk.injEq] at terms'
    obtain ⟨rfl, rfl⟩ := terms'
    split
    · exact ⟨_, rfl, .ratio (r := ⟨p, q, _, _⟩)⟩
    · next small =>
      have integral : q = 1 := by
        have positive := (Ratio.reduce_spec terms).1
        omega
      subst integral
      split
      · next fits =>
        obtain ⟨k, rfl⟩ := fits_iff.mp fits
        rw [Int64.ofInt_toInt]
        exact ⟨_, rfl, .int⟩
      · next large =>
        exact ⟨_, rfl, .big fun k same => large (fits_iff.mpr ⟨k, same⟩)⟩

/-- The content of the number tells the terms. -/
theorem Canonical.sameContent_iff (hx : Canonical i p q x) (hy : Canonical j r s y) :
    x.sameContent y = true ↔ p = r ∧ q = s := by
  cases hx with
  | @int k =>
    cases hy with
    | int => simp [sameContent, Int64.toInt_inj]
    | big large => exact iff_of_false Bool.false_ne_true fun same => large k same.1
    | @ratio r => exact iff_of_false Bool.false_ne_true fun same => Nat.ne_of_lt r.one_lt_den same.2
  | big large =>
    cases hy with
    | @int k => exact iff_of_false Bool.false_ne_true fun same => large k same.1.symm
    | big => simp [sameContent]
    | @ratio r => exact iff_of_false Bool.false_ne_true fun same => Nat.ne_of_lt r.one_lt_den same.2
  | @ratio r =>
    cases hy with
    | @ratio r' =>
      obtain ⟨num, den, _, _⟩ := r
      obtain ⟨num', den', _, _⟩ := r'
      simp [sameContent]
    | _ => exact iff_of_false Bool.false_ne_true fun same => Nat.ne_of_gt r.one_lt_den same.2

theorem Canonical.shares_eq_false (hx : Canonical i p q x) (hy : Canonical j r s y)
    (apart : i ≠ j) : x.shares y = false := by
  cases hx <;> cases hy <;> simp [shares, apart]

end Number

/-! ## Fractions as values -/

namespace Value

open Number (Canonical)

variable {n d p : Int} {q : Nat}

theorem exists_fraction (terms : Ratio.reduce n d = some (p, q)) (id : Nat) :
    ∃ x, fraction id n d = .ok (.num x) ∧ Canonical id p q x := by
  obtain ⟨x, made, canonical⟩ := Number.exists_ofFraction terms id
  exact ⟨x, by rw [fraction, made], canonical⟩

/-- Only a zero denominator is refused. -/
theorem fraction_eq_error_iff {id : Nat} {error : Error} : fraction id n d = .error error ↔
    d = 0 ∧ error = .illegalArgument "Divide by zero" := by
  by_cases zero : d = 0
  · rw [fraction, Number.ofFraction_eq_none (Ratio.reduce_eq_none_iff.mpr zero), Except.error.injEq,
      and_iff_right zero]
    exact eq_comm
  · obtain ⟨p, q, terms⟩ := Ratio.exists_reduce n zero
    obtain ⟨x, made, -⟩ := exists_fraction terms id
    rw [made]
    exact iff_of_false (by simp) fun refused => zero refused.1

/-- Two fractions that are made separately have equal content if they have the same value. -/
theorem equals_fraction_iff {m e : Int} {i j : Nat} (apart : i ≠ j) (hd : d ≠ 0) (he : e ≠ 0) :
    ∃ a b, fraction i n d = .ok a ∧ fraction j m e = .ok b ∧
      (equals a b = true ↔ n * e = m * d) := by
  obtain ⟨p, q, left⟩ := Ratio.exists_reduce n hd
  obtain ⟨r, s, right⟩ := Ratio.exists_reduce m he
  obtain ⟨x, hx, canonical⟩ := exists_fraction left i
  obtain ⟨y, hy, canonical'⟩ := exists_fraction right j
  refine ⟨.num x, .num y, hx, hy, ?_⟩
  have alone : identical (.num x) (.num y) = false := canonical.shares_eq_false canonical' apart
  rw [equals, alone, Bool.false_or, canonical.sameContent_iff canonical',
    ← Ratio.reduce_eq_reduce_iff hd he, left, right, Option.some.injEq, Prod.mk.injEq]

/-- A fraction is reduced to lowest terms with a positive denominator, unless its denominator is
zero, for which it is refused.  The terms alone decide which number it becomes, so fractions have
equal content just if they have the same value. -/
theorem fraction_canonical (n d : Int) :
    (Ratio.reduce n d = none ↔ d = 0) ∧
      (∀ p q, Ratio.reduce n d = some (p, q) → 0 < q ∧ Int.gcd p q = 1 ∧ p * d = n * q) ∧
      (∀ id error, fraction id n d = .error error ↔
        d = 0 ∧ error = .illegalArgument "Divide by zero") ∧
      (∀ id p q, Ratio.reduce n d = some (p, q) →
        ∃ x, fraction id n d = .ok (.num x) ∧ Canonical id p q x) ∧
      ∀ m e i j, i ≠ j → d ≠ 0 → e ≠ 0 →
        ∃ a b, fraction i n d = .ok a ∧ fraction j m e = .ok b ∧
          (equals a b = true ↔ n * e = m * d) := by
  refine ⟨Ratio.reduce_eq_none_iff, fun p q terms => ?_, fun id error => fraction_eq_error_iff,
    fun id p q terms => exists_fraction terms id,
    fun m e i j apart hd he => equals_fraction_iff apart hd he⟩
  exact Ratio.reduce_spec terms

/-- Fractions of one value with the sign in either term, and the fraction of an integer that no
word holds. -/
theorem fraction_canonical_signs :
    Ratio.reduce 4 (-6) = some (-2, 3) ∧ Int.gcd (-2) 3 = 1 ∧
      (∃ a b, fraction 0 4 (-6) = .ok a ∧ fraction 1 (-2) 3 = .ok b ∧ equals a b = true) ∧
      ∃ x, fraction 2 36893488147419103232 2 = .ok (.num x) ∧
        Canonical 2 18446744073709551616 1 x := by
  have terms : Ratio.reduce 4 (-6) = some (-2, 3) := by decide +kernel
  have large : Ratio.reduce 36893488147419103232 2 = some (18446744073709551616, 1) := by
    decide +kernel
  obtain ⟨-, lowest, -, -, same⟩ := fraction_canonical 4 (-6)
  obtain ⟨a, b, ha, hb, tie⟩ := same (-2) 3 0 1 (by decide) (by decide) (by decide)
  exact ⟨terms, (lowest _ _ terms).2.1, ⟨a, b, ha, hb, tie.mpr (by decide)⟩,
    (fraction_canonical 36893488147419103232 2).2.2.2.1 2 _ _ large⟩

end Value

end ValueCore
