import ValueCore.Proofs.Number.Point
import ValueCore.Proofs.Text.UnitOrder
import ValueCore.Value.Order
/-!
# Orders given by signs

The natural order answers numbers.  An answer `-1`, `0` or `1` that turns around with the
operands and is transitive makes a `SignOrder`.  The orders of booleans, characters, texts
and symbols are such, as is any oriented and transitive comparison, and only equals tie in
them.  Numbers have a sign order that ties on equal numbers, as long as there is no NaN.
-/

namespace ValueCore

open Std (OrientedCmp TransCmp LawfulEqCmp)

/-- Signs that order the elements with a property. -/
structure SignOrder {α : Type} (ordered : α → Prop) (sign : α → α → Int) : Prop where
  /-- There are three answers. -/
  range : ∀ x y, sign x y = -1 ∨ sign x y = 0 ∨ sign x y = 1
  /-- The answer turns around with the operands. -/
  swap : ∀ x y, sign y x = -sign x y
  /-- What is not above is transitive, and level at the ends only if level throughout. -/
  trans : ∀ {x y z}, ordered x → ordered y → ordered z → sign x y ≤ 0 → sign y z ≤ 0 →
    sign x z ≤ 0 ∧ (sign x z = 0 → sign x y = 0 ∧ sign y z = 0)

/-! ## Comparisons -/

theorem signOfOrdering_le_zero {o : Ordering} : signOfOrdering o ≤ 0 ↔ o.isLE = true := by
  cases o <;> decide

theorem signOfOrdering_eq_zero {o : Ordering} : signOfOrdering o = 0 ↔ o = .eq := by
  cases o <;> decide

/-- An oriented and transitive comparison orders by its sign. -/
theorem signOrder_of_transCmp {α : Type} {cmp : α → α → Ordering} [TransCmp cmp] :
    SignOrder (fun _ => True) fun x y => signOfOrdering (cmp x y) where
  range x y := by
    cases cmp x y with
    | lt => exact Or.inl rfl
    | eq => exact Or.inr (Or.inl rfl)
    | gt => exact Or.inr (Or.inr rfl)
  swap x y := by
    have turned : cmp y x = (cmp x y).swap := OrientedCmp.eq_swap
    rw [turned]
    cases cmp x y <;> rfl
  trans {x y z} _ _ _ hxy hyz := by
    rw [signOfOrdering_le_zero] at hxy hyz ⊢
    refine ⟨TransCmp.isLE_trans hxy hyz, fun tie => ?_⟩
    rw [signOfOrdering_eq_zero] at tie ⊢
    rw [signOfOrdering_eq_zero]
    -- a step below the first or the last one would show at the ends
    constructor
    · cases first : cmp x y with
      | eq => rfl
      | lt => rw [TransCmp.lt_of_lt_of_isLE first hyz] at tie; cases tie
      | gt => rw [first] at hxy; cases hxy
    · cases last : cmp y z with
      | eq => rfl
      | lt => rw [TransCmp.lt_of_isLE_of_lt hxy last] at tie; cases tie
      | gt => rw [last] at hyz; cases hyz

theorem signOfOrdering_eq_zero_iff {α : Type} {cmp : α → α → Ordering} [TransCmp cmp]
    [LawfulEqCmp cmp] {x y : α} : signOfOrdering (cmp x y) = 0 ↔ x = y := by
  rw [signOfOrdering_eq_zero]
  constructor
  · exact LawfulEqCmp.eq_of_compare
  · rintro rfl
    exact Std.ReflCmp.compare_self

instance : TransCmp boolOrder where
  eq_swap {x y} := by cases x <;> cases y <;> rfl
  isLE_trans {x y z} := by cases x <;> cases y <;> cases z <;> decide

instance : LawfulEqCmp boolOrder where
  compare_self {x} := by cases x <;> rfl
  eq_of_compare {x y} := by cases x <;> cases y <;> decide

theorem charOrder_eq_compareOn : charOrder = compareOn Char.toNat := by
  funext x y
  rw [charOrder, compareOn]
  rcases lt_trichotomy x.toNat y.toNat with lt | eq | gt
  · rw [if_pos lt, compare_lt_iff_lt.mpr lt]
  · rw [eq, if_neg (lt_irrefl _), if_neg (lt_irrefl _), compare_eq_iff_eq.mpr rfl]
  · rw [if_neg (not_lt_of_gt gt), if_pos gt, compare_gt_iff_gt.mpr gt]

instance : TransCmp charOrder := by
  rw [charOrder_eq_compareOn]
  infer_instance

instance : LawfulEqCmp charOrder where
  compare_self {x} := by
    rw [charOrder_eq_compareOn, compareOn]
    exact Std.ReflCmp.compare_self
  eq_of_compare {x y} h := by
    rw [charOrder_eq_compareOn, compareOn] at h
    exact Char.toNat_inj.mp (LawfulEqCmp.eq_of_compare h)

/-! ## Numbers -/

namespace Number

theorem compare_swap (x y : Number) : y.compare x = -x.compare y := by
  cases nx : x.isNaN with
  | true => rw [(compare_of_isNaN nx).1, (compare_of_isNaN nx).2]; rfl
  | false =>
    cases ny : y.isNaN with
    | true => rw [(compare_of_isNaN ny).1, (compare_of_isNaN ny).2]; rfl
    | false =>
      obtain ⟨v, hv⟩ := exists_point nx
      obtain ⟨w, hw⟩ := exists_point ny
      rw [compare_of_point hv hw, compare_of_point hw hv, Point.sign_swap]

theorem compare_range (x y : Number) :
    x.compare y = -1 ∨ x.compare y = 0 ∨ x.compare y = 1 := by
  cases nx : x.isNaN with
  | true => exact Or.inr (Or.inl (compare_of_isNaN nx).1)
  | false =>
    cases ny : y.isNaN with
    | true => exact Or.inr (Or.inl (compare_of_isNaN ny).2)
    | false =>
      obtain ⟨v, hv⟩ := exists_point nx
      obtain ⟨w, hw⟩ := exists_point ny
      rw [compare_of_point hv hw, Point.sign]
      split
      · exact Or.inl rfl
      · split
        · exact Or.inr (Or.inr rfl)
        · exact Or.inr (Or.inl rfl)

/-- Numbers that are no NaN are ordered by their points. -/
theorem signOrder_compare : SignOrder (fun x : Number => x.isNaN = false) compare where
  range := compare_range
  swap := compare_swap
  trans {x y z} nx ny nz hxy hyz := by
    obtain ⟨u, hu⟩ := exists_point nx
    obtain ⟨v, hv⟩ := exists_point ny
    obtain ⟨w, hw⟩ := exists_point nz
    rw [compare_of_point hu hv, Point.sign_le_zero] at hxy
    rw [compare_of_point hv hw, Point.sign_le_zero] at hyz
    rw [compare_of_point hu hw, compare_of_point hu hv, compare_of_point hv hw,
      Point.sign_le_zero, Point.sign_eq_zero, Point.sign_eq_zero, Point.sign_eq_zero]
    refine ⟨le_trans hxy hyz, ?_⟩
    rintro rfl
    exact ⟨le_antisymm hxy hyz, le_antisymm hyz hxy⟩

theorem compare_eq_zero_iff {x y : Number} (nx : x.isNaN = false) (ny : y.isNaN = false) :
    x.compare y = 0 ↔ x.equal y = true := by
  obtain ⟨v, hv⟩ := exists_point nx
  obtain ⟨w, hw⟩ := exists_point ny
  rw [compare_of_point hv hw, Point.sign_eq_zero, equal_iff]
  constructor
  · rintro rfl
    exact ⟨v, hv, hw⟩
  · rintro ⟨u, hu, hu'⟩
    rw [hv] at hu
    rw [hw] at hu'
    rw [Option.some.inj hu, Option.some.inj hu']

end Number

end ValueCore
