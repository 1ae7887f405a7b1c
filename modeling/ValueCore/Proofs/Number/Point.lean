import Mathlib.Order.WithBot
import ValueCore.Number.Basic
import ValueCore.Proofs.Number.DoubleValue
/-!
# Numbers on one line

Every number but a NaN stands at a *point* of the rational line with its two ends.
The infinite doubles are the ends, and all other numbers are rationals.

Equality, comparison and value hash of numbers only depend on points, in whichever
of the four representations the numbers are held.

* Two numbers are equal if they stand at one point (`Number.equal_iff`).
* They compare as their points do (`Number.compare_of_point`), and a NaN compares as
  `0` with everything (`Number.compare_of_isNaN`).
* Equal numbers have one value hash (`Number.hashEq_eq_of_equal`).

The finer equality of content keeps the representations apart, and its hash agrees
with it (`Number.hash_eq_of_sameContent`).
-/

namespace ValueCore

/-- A place on the rational line or one of its ends. -/
abbrev Point := WithBot (WithTop ℚ)

/-- A rational on the line. -/
def Point.ofRat (r : ℚ) : Point := ((r : WithTop ℚ) : WithBot (WithTop ℚ))

/-- The order of two points as a number. -/
def Point.sign (v w : Point) : Int := if v < w then -1 else if w < v then 1 else 0

theorem Point.ofRat_lt {r s : ℚ} : Point.ofRat r < Point.ofRat s ↔ r < s := by
  rw [ofRat, ofRat, WithBot.coe_lt_coe, WithTop.coe_lt_coe]

theorem Point.ofRat_inj {r s : ℚ} : Point.ofRat r = Point.ofRat s ↔ r = s := by
  rw [ofRat, ofRat, WithBot.coe_inj, WithTop.coe_inj]

theorem Point.bot_lt_ofRat (r : ℚ) : (⊥ : Point) < Point.ofRat r := WithBot.bot_lt_coe _

theorem Point.ofRat_lt_top (r : ℚ) : Point.ofRat r < (⊤ : Point) :=
  WithBot.coe_lt_coe.mpr (WithTop.coe_lt_top r)

theorem Point.sign_swap (v w : Point) : Point.sign w v = -Point.sign v w := by
  rcases lt_trichotomy v w with lt | rfl | gt
  · simp [Point.sign, lt, not_lt_of_gt lt]
  · simp [Point.sign]
  · simp [Point.sign, gt, not_lt_of_gt gt]

theorem Point.sign_eq_zero {v w : Point} : Point.sign v w = 0 ↔ v = w := by
  rcases lt_trichotomy v w with lt | rfl | gt
  · simp [Point.sign, lt, ne_of_lt lt]
  · simp [Point.sign]
  · simp [Point.sign, gt, not_lt_of_gt gt, ne_of_gt gt]

theorem Point.sign_le_zero {v w : Point} : Point.sign v w ≤ 0 ↔ v ≤ w := by
  rcases lt_trichotomy v w with lt | rfl | gt
  · simp [Point.sign, lt, le_of_lt lt]
  · simp [Point.sign]
  · simp [Point.sign, gt, not_lt_of_gt gt]

namespace Double

/-! ## Doubles -/

/-- Where a double stands, if it is no NaN. -/
def point? (x : Double) : Option Point :=
  if x.isNaN then none
  else if x.isFinite then some (Point.ofRat x.value)
  else some (if x.negative then ⊥ else ⊤)

theorem point?_of_finite {x : Double} (h : x.isFinite = true) :
    x.point? = some (Point.ofRat x.value) := by
  simp [point?, isNaN_of_finite h, h]

theorem point?_of_infinite {x : Double} (hfin : x.isFinite = false) (hnan : x.isNaN = false) :
    x.point? = some (if x.negative then ⊥ else ⊤) := by
  simp [point?, hfin, hnan]

theorem isNaN_of_point? {x : Double} {v : Point} (h : x.point? = some v) : x.isNaN = false := by
  cases hn : x.isNaN with
  | false => rfl
  | true => simp [point?, hn] at h

theorem orderKey_of_finite {x : Double} (h : x.isFinite = true) :
    -(2047 * 2 ^ 52) < x.orderKey ∧ x.orderKey < 2047 * 2 ^ 52 := by
  have bound := magnitude_of_finite h
  simp only [orderKey, signed]
  split <;> omega

theorem orderKey_of_infinite {x : Double} (hfin : x.isFinite = false)
    (hnan : x.isNaN = false) :
    x.orderKey = if x.negative then -(2047 * 2 ^ 52) else 2047 * 2 ^ 52 := by
  rw [orderKey, signed, magnitude_of_infinite hfin hnan]
  split <;> rfl

/-- The key that only reads the bits orders doubles as their points. -/
theorem orderKey_lt_iff {x y : Double} {v w : Point} (hx : x.point? = some v)
    (hy : y.point? = some w) : x.orderKey < y.orderKey ↔ v < w := by
  have nx := isNaN_of_point? hx
  have ny := isNaN_of_point? hy
  cases fx : x.isFinite with
  | true =>
    have kx := orderKey_of_finite fx
    rw [point?_of_finite fx, Option.some.injEq] at hx
    subst hx
    cases fy : y.isFinite with
    | true =>
      rw [point?_of_finite fy, Option.some.injEq] at hy
      subst hy
      rw [Point.ofRat_lt, value_lt_value, orderKey_lt_orderKey]
    | false =>
      have ky := orderKey_of_infinite fy ny
      rw [point?_of_infinite fy ny, Option.some.injEq] at hy
      subst hy
      cases sy : y.negative with
      | true =>
        simp only [sy, if_true] at ky ⊢
        exact ⟨fun h => by omega, fun h => absurd h not_lt_bot⟩
      | false =>
        simp only [sy, Bool.false_eq_true, if_false] at ky ⊢
        exact ⟨fun _ => Point.ofRat_lt_top _, fun _ => by omega⟩
  | false =>
    have kx := orderKey_of_infinite fx nx
    rw [point?_of_infinite fx nx, Option.some.injEq] at hx
    subst hx
    cases fy : y.isFinite with
    | true =>
      have ky := orderKey_of_finite fy
      rw [point?_of_finite fy, Option.some.injEq] at hy
      subst hy
      cases sx : x.negative with
      | true =>
        simp only [sx, if_true] at kx ⊢
        exact ⟨fun _ => Point.bot_lt_ofRat _, fun _ => by omega⟩
      | false =>
        simp only [sx, Bool.false_eq_true, if_false] at kx ⊢
        exact ⟨fun h => by omega, fun h => absurd h not_top_lt⟩
    | false =>
      have ky := orderKey_of_infinite fy ny
      rw [point?_of_infinite fy ny, Option.some.injEq] at hy
      subst hy
      rw [kx, ky]
      cases x.negative <;> cases y.negative <;> simp [bot_lt_top]

theorem orderKey_eq_iff {x y : Double} {v w : Point} (hx : x.point? = some v)
    (hy : y.point? = some w) : x.orderKey = y.orderKey ↔ v = w := by
  have below := orderKey_lt_iff hx hy
  have above := orderKey_lt_iff hy hx
  constructor
  · intro same
    rw [same, lt_self_iff_false, false_iff] at below
    rw [same, lt_self_iff_false, false_iff] at above
    exact le_antisymm (not_lt.mp above) (not_lt.mp below)
  · intro same
    rw [same, lt_self_iff_false, iff_false] at below
    rw [same, lt_self_iff_false, iff_false] at above
    omega

/-- Doubles at one point are the same but for the sign of a zero. -/
theorem floatHash_eq_of_eq {x y : Double} (h : x.eq y = true) :
    Number.floatHash x = Number.floatHash y := by
  simp only [Double.eq, Bool.and_eq_true, Bool.not_eq_true', decide_eq_true_eq] at h
  obtain ⟨_, keys⟩ := h
  by_cases zero : x.magnitude = 0
  · have zero' : y.magnitude = 0 := by
      simp only [orderKey, signed] at keys
      split at keys <;> split at keys <;> omega
    simp [Number.floatHash, isZero, zero, zero']
  · have signs : x.negative = y.negative := by
      simp only [orderKey, signed] at keys
      cases hx : x.negative <;> cases hy : y.negative <;> simp_all
    have magnitudes : x.magnitude = y.magnitude := by
      simp only [orderKey, signed] at keys
      split at keys <;> split at keys <;> omega
    rw [eq_of_magnitude signs magnitudes]

end Double

namespace Number

/-! ## Points of numbers -/

/-- Whether a number is a NaN. -/
def isNaN : Number → Bool
  | .float x => x.isNaN
  | _ => false

/-- Where a number stands, if it is no NaN. -/
def point? : Number → Option Point
  | .int n => some (Point.ofRat n.toInt)
  | .big _ n => some (Point.ofRat n)
  | .float x => x.point?
  | .ratio _ r => some (Point.ofRat (r.num / r.den))

theorem point?_eq_none_iff {n : Number} : n.point? = none ↔ n.isNaN = true := by
  cases n with
  | int n => simp [point?, isNaN]
  | big i n => simp [point?, isNaN]
  | float x =>
    simp only [point?, Double.point?, isNaN]
    split
    · next nan => simp [nan]
    · next other => split <;> simp [other]
  | ratio i r => simp [point?, isNaN]

theorem exists_point {n : Number} (h : n.isNaN = false) : ∃ v, n.point? = some v := by
  cases hp : n.point? with
  | none => rw [point?_eq_none_iff.mp hp] at h; cases h
  | some v => exact ⟨v, rfl⟩

/-- The parts of a number are its point in lowest terms. -/
theorem point?_of_parts {n : Number} {p : Int} {q : Nat} (h : n.parts = some (p, q)) :
    0 < q ∧ Nat.Coprime p.natAbs q ∧ n.point? = some (Point.ofRat (p / q)) := by
  cases n with
  | int n =>
    simp only [parts, Option.some.injEq, Prod.mk.injEq] at h
    obtain ⟨rfl, rfl⟩ := h
    exact ⟨Nat.one_pos, Nat.coprime_one_right _, by simp [point?]⟩
  | big i n =>
    simp only [parts, Option.some.injEq, Prod.mk.injEq] at h
    obtain ⟨rfl, rfl⟩ := h
    exact ⟨Nat.one_pos, Nat.coprime_one_right _, by simp [point?]⟩
  | float x =>
    have finite : x.isFinite = true := by rw [← Double.parts_isSome, show x.parts = _ from h]; rfl
    obtain ⟨positive, coprime, value⟩ := Double.parts_eq_some h
    refine ⟨positive, coprime, ?_⟩
    rw [point?, Double.point?_of_finite finite, value]
  | ratio i r =>
    simp only [parts, Option.some.injEq, Prod.mk.injEq] at h
    obtain ⟨rfl, rfl⟩ := h
    exact ⟨Nat.lt_trans Nat.one_pos r.one_lt_den, r.coprime, rfl⟩

/-- Only doubles that are not finite have no parts. -/
theorem of_parts_none {n : Number} (h : n.parts = none) :
    ∃ x : Double, n = .float x ∧ x.isFinite = false := by
  cases n with
  | int n => simp [parts] at h
  | big i n => simp [parts] at h
  | float x => exact ⟨x, rfl, by rw [← Double.parts_isSome, show x.parts = none from h]; rfl⟩
  | ratio i r => simp [parts] at h

/-- Lowest terms are unique. -/
theorem parts_eq_parts {m n : Number} {p r : Int} {q s : Nat} {v : Point}
    (hm : m.parts = some (p, q)) (hn : n.parts = some (r, s)) (pm : m.point? = some v)
    (pn : n.point? = some v) : (p, q) = (r, s) := by
  obtain ⟨hq, cm, hv⟩ := point?_of_parts hm
  obtain ⟨hs, cn, hw⟩ := point?_of_parts hn
  rw [pm, Option.some.injEq] at hv
  rw [pn, Option.some.injEq, hv, Point.ofRat_inj] at hw
  obtain ⟨num, den⟩ := Rat.div_int_inj (Int.natCast_pos.mpr hq) (Int.natCast_pos.mpr hs)
    (by simpa using cm) (by simpa using cn) (by exact_mod_cast hw)
  rw [num, Int.ofNat_inj.mp den]

/-! ## Equality -/

theorem equal_float_iff {x y : Double} :
    x.eq y = true ↔ ∃ v, x.point? = some v ∧ y.point? = some v := by
  simp only [Double.eq, Bool.and_eq_true, Bool.not_eq_true', decide_eq_true_eq]
  constructor
  · rintro ⟨⟨nx, ny⟩, keys⟩
    obtain ⟨v, hv⟩ := exists_point (n := .float x) nx
    obtain ⟨w, hw⟩ := exists_point (n := .float y) ny
    exact ⟨v, hv, by rw [(Double.orderKey_eq_iff hv hw).mp keys]; exact hw⟩
  · rintro ⟨v, hx, hy⟩
    exact ⟨⟨Double.isNaN_of_point? hx, Double.isNaN_of_point? hy⟩,
      (Double.orderKey_eq_iff hx hy).mpr rfl⟩

/-- Unless both are doubles, numbers are equal if their parts are. -/
theorem equal_of_parts {a b : Number} {s t : Int × Nat} (ha : a.parts = some s)
    (hb : b.parts = some t) (mixed : ∀ x y, a = .float x → b ≠ .float y) :
    a.equal b = (s == t) := by
  cases a <;> cases b <;> simp only [parts, Option.some.injEq] at ha hb
  case int.int =>
    subst ha hb
    simp [equal, Int64.toInt_inj]
  case float.float x y => exact absurd rfl (mixed x y rfl)
  all_goals simp [equal, parts, ha, hb]

theorem equal_of_infinite {x : Double} {b : Number} (h : x.isFinite = false)
    (mixed : ∀ y, b ≠ .float y) : (float x).equal b = false ∧ b.equal (float x) = false := by
  have none : x.parts = none := by
    rw [← Option.not_isSome_iff_eq_none, Double.parts_isSome, h]
    exact Bool.false_ne_true
  cases b with
  | int n => simp [equal, parts, none]
  | big i n => simp [equal, parts, none]
  | float y => exact absurd rfl (mixed y)
  | ratio i r => simp [equal, parts, none]

/-- A number that is no double stands between the ends. -/
theorem point?_of_not_float {b : Number} (h : ∀ y, b ≠ .float y) :
    ∃ r, b.point? = some (Point.ofRat r) := by
  cases b with
  | int n => exact ⟨_, rfl⟩
  | big i n => exact ⟨_, rfl⟩
  | float y => exact absurd rfl (h y)
  | ratio i r => exact ⟨_, rfl⟩

/-- An infinite double stands at no rational. -/
theorem point?_ne_of_infinite {x : Double} {b : Number} {v : Point} (h : x.isFinite = false)
    (mixed : ∀ y, b ≠ .float y) (hx : x.point? = some v) : b.point? ≠ some v := by
  intro same
  obtain ⟨r, hr⟩ := point?_of_not_float mixed
  have nan := Double.isNaN_of_point? hx
  rw [Double.point?_of_infinite h nan, Option.some.injEq] at hx
  rw [hr, Option.some.injEq, ← hx] at same
  split at same
  · exact absurd same.symm (ne_of_lt (Point.bot_lt_ofRat r))
  · exact absurd same (ne_of_lt (Point.ofRat_lt_top r))

/-- Numbers are equal if they stand at one point. -/
theorem equal_iff {a b : Number} :
    a.equal b = true ↔ ∃ v, a.point? = some v ∧ b.point? = some v := by
  by_cases floats : ∃ x y, a = .float x ∧ b = .float y
  · obtain ⟨x, y, rfl, rfl⟩ := floats
    exact equal_float_iff
  · have mixed : ∀ x y, a = .float x → b ≠ .float y := fun x y hx hy => floats ⟨x, y, hx, hy⟩
    cases ha : a.parts with
    | none =>
      obtain ⟨x, rfl, infinite⟩ := of_parts_none ha
      have other : ∀ y, b ≠ .float y := fun y => mixed x y rfl
      refine iff_of_false (ne_true_of_eq_false (equal_of_infinite infinite other).1) ?_
      rintro ⟨v, hv, hw⟩
      exact point?_ne_of_infinite infinite other hv hw
    | some s =>
      cases hb : b.parts with
      | none =>
        obtain ⟨y, rfl, infinite⟩ := of_parts_none hb
        have other : ∀ x, a ≠ .float x := fun x hx => mixed x y hx rfl
        refine iff_of_false (ne_true_of_eq_false (equal_of_infinite infinite other).2) ?_
        rintro ⟨v, hv, hw⟩
        exact point?_ne_of_infinite infinite other hw hv
      | some t =>
        rw [equal_of_parts ha hb mixed, beq_iff_eq]
        constructor
        · rintro rfl
          exact ⟨_, (point?_of_parts ha).2.2, (point?_of_parts hb).2.2⟩
        · rintro ⟨v, hv, hw⟩
          exact parts_eq_parts ha hb hv hw

theorem equal_symm {a b : Number} (h : a.equal b = true) : b.equal a = true := by
  obtain ⟨v, hv, hw⟩ := equal_iff.mp h
  exact equal_iff.mpr ⟨v, hw, hv⟩

theorem equal_trans {a b c : Number} (h : a.equal b = true) (h' : b.equal c = true) :
    a.equal c = true := by
  obtain ⟨v, ha, hb⟩ := equal_iff.mp h
  obtain ⟨w, hb', hc⟩ := equal_iff.mp h'
  rw [hb, Option.some.injEq] at hb'
  exact equal_iff.mpr ⟨v, ha, hb' ▸ hc⟩

theorem equal_self {a : Number} (h : a.isNaN = false) : a.equal a = true := by
  obtain ⟨v, hv⟩ := exists_point h
  exact equal_iff.mpr ⟨v, hv, hv⟩

/-! ## The value hash -/

theorem fits_toInt (n : Int64) : fits n.toInt = true := by
  simp only [fits, Bool.and_eq_true, decide_eq_true_eq]
  exact ⟨n.le_toInt, n.toInt_lt⟩

theorem integerHash_toInt (n : Int64) : integerHash n.toInt = Murmur.hashLong n.toUInt64 := by
  rw [integerHash, if_pos (fits_toInt n), Int64.ofInt_toInt]

/-- The shortcuts for the zeros and for integral doubles give the hash of the parts. -/
theorem floatHash_of_parts {x : Double} {p : Int} {q : Nat} (h : x.parts = some (p, q)) :
    floatHash x = fractionHash p q := by
  have finite : x.isFinite = true := by rw [← Double.parts_isSome, h]; rfl
  by_cases zero : x.isZero = true
  · obtain ⟨positive, coprime, value⟩ := Double.parts_eq_some h
    obtain ⟨rfl, rfl⟩ : p = 0 ∧ q = 1 := by
      rw [Double.value_eq_level, Double.level_of_isZero zero, Int.cast_zero, zero_mul, eq_comm,
        div_eq_zero_iff, Int.cast_eq_zero] at value
      have num : p = 0 := value.resolve_right (by exact_mod_cast Nat.ne_of_gt positive)
      subst num
      exact ⟨rfl, by simpa using coprime⟩
    rw [floatHash, if_pos zero]
    decide
  · by_cases integral : x.isIntegral = true
    · rw [Double.parts_of_isIntegral finite integral, Option.some.injEq, Prod.mk.injEq] at h
      obtain ⟨rfl, rfl⟩ := h
      by_cases small : fits x.truncate = true
      · simp [floatHash, zero, finite, integral, small, fractionHash, integerHash]
      · simp [floatHash, zero, finite, small, Double.parts_of_isIntegral finite integral]
    · simp [floatHash, zero, finite, integral, h]

theorem hashEq_of_parts {n : Number} {p : Int} {q : Nat} (h : n.parts = some (p, q)) :
    n.hashEq = fractionHash p q := by
  cases n with
  | int n =>
    simp only [parts, Option.some.injEq, Prod.mk.injEq] at h
    obtain ⟨rfl, rfl⟩ := h
    rw [fractionHash, if_pos rfl, integerHash_toInt, hashEq]
  | big i n =>
    simp only [parts, Option.some.injEq, Prod.mk.injEq] at h
    obtain ⟨rfl, rfl⟩ := h
    rw [fractionHash, if_pos rfl, hashEq]
  | float x => exact floatHash_of_parts h
  | ratio i r =>
    simp only [parts, Option.some.injEq, Prod.mk.injEq] at h
    obtain ⟨rfl, rfl⟩ := h
    rw [fractionHash, if_neg (Nat.ne_of_gt r.one_lt_den), hashEq]

/-- Equal numbers have one value hash, in whichever representation they are. -/
theorem hashEq_eq_of_equal {a b : Number} (h : a.equal b = true) : a.hashEq = b.hashEq := by
  by_cases floats : ∃ x y, a = .float x ∧ b = .float y
  · obtain ⟨x, y, rfl, rfl⟩ := floats
    exact Double.floatHash_eq_of_eq h
  · have mixed : ∀ x y, a = .float x → b ≠ .float y := fun x y hx hy => floats ⟨x, y, hx, hy⟩
    obtain ⟨v, hv, hw⟩ := equal_iff.mp h
    cases ha : a.parts with
    | none =>
      obtain ⟨x, rfl, infinite⟩ := of_parts_none ha
      exact absurd hw (point?_ne_of_infinite infinite (fun y => mixed x y rfl) hv)
    | some s =>
      cases hb : b.parts with
      | none =>
        obtain ⟨y, rfl, infinite⟩ := of_parts_none hb
        exact absurd hv (point?_ne_of_infinite infinite (fun x hx => mixed x y hx rfl) hw)
      | some t =>
        have same : s = t := parts_eq_parts ha hb hv hw
        rw [hashEq_of_parts ha, hashEq_of_parts hb, same]

/-! ## Comparison -/

theorem sign_ofRat {p r : Int} {q s : Nat} (hq : 0 < q) (hs : 0 < s) :
    Point.sign (Point.ofRat (p / q)) (Point.ofRat (r / s)) =
      signOfDifference (p * s) (r * q) := by
  have hq' : (0 : ℚ) < q := by exact_mod_cast hq
  have hs' : (0 : ℚ) < s := by exact_mod_cast hs
  have below : (p / q : ℚ) < r / s ↔ p * s < r * q := by
    rw [div_lt_div_iff₀ hq' hs']
    exact_mod_cast Iff.rfl
  have above : (r / s : ℚ) < p / q ↔ r * q < p * s := by
    rw [div_lt_div_iff₀ hs' hq']
    exact_mod_cast Iff.rfl
  simp only [Point.sign, signOfDifference, Point.ofRat_lt, below, above]

theorem compare_float {x y : Double} {v w : Point} (hx : x.point? = some v)
    (hy : y.point? = some w) : (float x).compare (float y) = Point.sign v w := by
  have nx := Double.isNaN_of_point? hx
  have ny := Double.isNaN_of_point? hy
  simp only [compare, Double.lt, nx, ny, Bool.not_false, Bool.true_and, decide_eq_true_eq,
    Point.sign, Double.orderKey_lt_iff hx hy, Double.orderKey_lt_iff hy hx]

/-- Unless both are doubles, numbers compare as their parts do. -/
theorem compare_of_parts {a b : Number} {p r : Int} {q s : Nat} (ha : a.parts = some (p, q))
    (hb : b.parts = some (r, s)) (mixed : ∀ x y, a = .float x → b ≠ .float y) :
    a.compare b = signOfDifference (p * s) (r * q) := by
  cases a <;> cases b <;> simp only [parts, Option.some.injEq] at ha hb
  case int.int =>
    obtain ⟨rfl, rfl⟩ := Prod.mk.inj ha
    obtain ⟨rfl, rfl⟩ := Prod.mk.inj hb
    simp [compare]
  case float.float x y => exact absurd rfl (mixed x y rfl)
  all_goals simp [compare, parts, ha, hb]

theorem compare_of_infinite {x : Double} {b : Number} (h : x.isFinite = false)
    (mixed : ∀ y, b ≠ .float y) :
    (float x).compare b = boundSign x ∧ b.compare (float x) = -boundSign x := by
  have none : x.parts = none := by
    rw [← Option.not_isSome_iff_eq_none, Double.parts_isSome, h]
    exact Bool.false_ne_true
  cases b with
  | int n => simp [compare, parts, none]
  | big i n => simp [compare, parts, none]
  | float y => exact absurd rfl (mixed y)
  | ratio i r => simp [compare, parts, none]

theorem sign_of_infinite {x : Double} {v : Point} (h : x.isFinite = false)
    (hx : x.point? = some v) (r : ℚ) :
    Point.sign v (Point.ofRat r) = boundSign x ∧
      Point.sign (Point.ofRat r) v = -boundSign x := by
  have nan := Double.isNaN_of_point? hx
  rw [Double.point?_of_infinite h nan, Option.some.injEq] at hx
  subst hx
  have low := Point.bot_lt_ofRat r
  have high := Point.ofRat_lt_top r
  cases sign : x.negative <;>
    simp [Point.sign, boundSign, nan, sign, low, high, not_lt_of_gt low, not_lt_of_gt high]

/-- Numbers compare as their points do. -/
theorem compare_of_point {a b : Number} {v w : Point} (hv : a.point? = some v)
    (hw : b.point? = some w) : a.compare b = Point.sign v w := by
  by_cases floats : ∃ x y, a = .float x ∧ b = .float y
  · obtain ⟨x, y, rfl, rfl⟩ := floats
    exact compare_float hv hw
  · have mixed : ∀ x y, a = .float x → b ≠ .float y := fun x y hx hy => floats ⟨x, y, hx, hy⟩
    cases ha : a.parts with
    | none =>
      obtain ⟨x, rfl, infinite⟩ := of_parts_none ha
      have other : ∀ y, b ≠ .float y := fun y => mixed x y rfl
      obtain ⟨r, hr⟩ := point?_of_not_float other
      rw [hw, Option.some.injEq] at hr
      rw [(compare_of_infinite infinite other).1, hr, (sign_of_infinite infinite hv r).1]
    | some s =>
      cases hb : b.parts with
      | none =>
        obtain ⟨y, rfl, infinite⟩ := of_parts_none hb
        have other : ∀ x, a ≠ .float x := fun x hx => mixed x y hx rfl
        obtain ⟨r, hr⟩ := point?_of_not_float other
        rw [hv, Option.some.injEq] at hr
        rw [(compare_of_infinite infinite other).2, hr, (sign_of_infinite infinite hw r).2]
      | some t =>
        obtain ⟨hq, _, pv⟩ := point?_of_parts ha
        obtain ⟨hs, _, pw⟩ := point?_of_parts hb
        rw [hv, Option.some.injEq] at pv
        rw [hw, Option.some.injEq] at pw
        rw [compare_of_parts ha hb mixed, pv, pw, sign_ofRat hq hs]

/-- A NaN stands nowhere, which counts as `0`. -/
theorem compare_of_isNaN {a b : Number} (h : a.isNaN = true) :
    a.compare b = 0 ∧ b.compare a = 0 := by
  cases a with
  | int n => cases h
  | big i n => cases h
  | ratio i r => cases h
  | float x =>
    have nan : x.isNaN = true := h
    by_cases floats : ∃ y, b = .float y
    · obtain ⟨y, rfl⟩ := floats
      simp [compare, Double.lt, nan]
    · have infinite : x.isFinite = false := by
        cases finite : x.isFinite with
        | false => rfl
        | true => rw [Double.isNaN_of_finite finite] at nan; cases nan
      obtain ⟨left, right⟩ := compare_of_infinite infinite (fun y hy => floats ⟨y, hy⟩)
      have nowhere : boundSign x = 0 := by rw [boundSign, if_pos nan]
      exact ⟨by rw [left, nowhere], by rw [right, nowhere]; rfl⟩

/-! ## Content -/

/-- A number without its allocation, and with one NaN for all. -/
def content : Number → Number
  | .int n => .int n
  | .big _ n => .big 0 n
  | .float x => .float (if x.isNaN then ⟨0x7ff8000000000000⟩ else x)
  | .ratio _ r => .ratio 0 r

theorem sameBits_iff {x y : Double} :
    x.sameBits y = true ↔ (float x).content = (float y).content := by
  have quiet : (Double.mk 0x7ff8000000000000).isNaN = true := by decide +kernel
  simp only [Double.sameBits, content, Number.float.injEq]
  cases hx : x.isNaN <;> cases hy : y.isNaN
  · cases x
    cases y
    simp
  · have apart : x ≠ ⟨0x7ff8000000000000⟩ := by rintro rfl; simp [quiet] at hx
    have bits : ¬ x.bits = y.bits := by
      intro same
      obtain rfl : x = y := by cases x; cases y; exact congrArg _ same
      rw [hx] at hy
      cases hy
    simp [apart, bits]
  · have apart : y ≠ ⟨0x7ff8000000000000⟩ := by rintro rfl; simp [quiet] at hy
    have bits : ¬ x.bits = y.bits := by
      intro same
      obtain rfl : x = y := by cases x; cases y; exact congrArg _ same
      rw [hx] at hy
      cases hy
    simp [apart.symm, bits]
  · simp

/-- Numbers of the same content differ in their allocations alone, and in which NaN they
are. -/
theorem sameContent_iff {a b : Number} : a.sameContent b = true ↔ a.content = b.content := by
  cases a <;> cases b <;>
    first
    | exact sameBits_iff
    | simp [sameContent, content]

theorem isNaN_content (a : Number) : a.content.isNaN = a.isNaN := by
  cases a with
  | int n => rfl
  | big i n => rfl
  | float x =>
    have quiet : (Double.mk 0x7ff8000000000000).isNaN = true := by decide +kernel
    cases hx : x.isNaN with
    | false => simp [content, isNaN, hx]
    | true => simp [content, isNaN, hx, quiet]
  | ratio i r => rfl

theorem isNaN_eq_of_sameContent {a b : Number} (h : a.sameContent b = true) :
    a.isNaN = b.isNaN := by
  rw [← isNaN_content a, ← isNaN_content b, sameContent_iff.mp h]

/-- Numbers of the same content that are no NaN are equal. -/
theorem equal_of_sameContent {a b : Number} (h : a.sameContent b = true)
    (number : a.isNaN = false) : a.equal b = true := by
  have other := isNaN_eq_of_sameContent h
  rw [number] at other
  have same := sameContent_iff.mp h
  obtain ⟨v, hv⟩ := exists_point number
  refine equal_iff.mpr ⟨v, hv, ?_⟩
  cases a <;> cases b <;> simp only [content, reduceCtorEq, int.injEq, big.injEq, float.injEq,
    ratio.injEq, true_and] at same
  case float.float x y =>
    rw [show x.isNaN = false from number, show y.isNaN = false from other.symm] at same
    simp only [Bool.false_eq_true, if_false] at same
    rw [← same]
    exact hv
  all_goals
    subst same
    exact hv

theorem hash_content (a : Number) : a.content.hash = a.hash := by
  cases a with
  | int n => rfl
  | big i n => rfl
  | float x =>
    have quiet : (Double.mk 0x7ff8000000000000).isNaN = true := by decide +kernel
    cases hx : x.isNaN with
    | false => simp [content, hx]
    | true => simp [content, hash, Double.hash, hx, quiet]
  | ratio i r => rfl

theorem hash_eq_of_sameContent {a b : Number} (h : a.sameContent b = true) :
    a.hash = b.hash := by
  rw [← hash_content a, ← hash_content b, sameContent_iff.mp h]

end Number

end ValueCore
