import ValueCore.Keyword.Basic
/-!
# The order of texts, symbols and keywords

The code units of a text tell its characters apart (`Text.units_injective`): a first
unit is a high surrogate just if a second one follows.  So the lexicographic order of
code units is a total order of texts, in which only equal texts tie.  Symbols are
ordered by namespace and name, and keywords by their symbols.

The instances below state it in the terms of the standard library.  `TransCmp` is an
oriented and transitive comparison, and `LawfulEqCmp` says that it ties on equals
alone.
-/

namespace ValueCore

open Std (OrientedCmp TransCmp LawfulEqCmp)

namespace Text

/-! ## Code units -/

/-- A character is below the surrogates or above them. -/
theorem toNat_bounds (c : Char) :
    c.toNat < 0xD800 ∨ 0xDFFF < c.toNat ∧ c.toNat < 0x110000 := c.valid

theorem toUInt16_inj {m n : Nat} (hm : m < 0x10000) (hn : n < 0x10000)
    (h : m.toUInt16 = n.toUInt16) : m = n := by
  have same := congrArg UInt16.toNat h
  rwa [Nat.toUInt16_eq, Nat.toUInt16_eq, UInt16.toNat_ofNat_of_lt' hm,
    UInt16.toNat_ofNat_of_lt' hn] at same

theorem charUnits_ne_nil (c : Char) : charUnits c ≠ [] := by
  rw [charUnits]
  split <;> exact List.cons_ne_nil _ _

/-- The code units of a character tell it apart, whatever comes after them. -/
theorem charUnits_append_inj {c d : Char} {us vs : List UInt16}
    (h : charUnits c ++ us = charUnits d ++ vs) : c = d ∧ us = vs := by
  have bc := toNat_bounds c
  have bd := toNat_bounds d
  simp only [charUnits] at h
  split at h
  · next small =>
    split at h
    · next small' =>
      simp only [List.cons_append, List.nil_append, List.cons.injEq] at h
      exact ⟨Char.toNat_inj.mp (toUInt16_inj small small' h.1), h.2⟩
    · next large' =>
      simp only [List.cons_append, List.cons.injEq] at h
      have unit := toUInt16_inj small (by omega) h.1
      omega
  · next large =>
    split at h
    · next small' =>
      simp only [List.cons_append, List.cons.injEq] at h
      have unit := toUInt16_inj (by omega) small' h.1
      omega
    · next large' =>
      simp only [List.cons_append, List.nil_append, List.cons.injEq] at h
      have high := toUInt16_inj (by omega) (by omega) h.1
      have low := toUInt16_inj (by omega) (by omega) h.2.1
      exact ⟨Char.toNat_inj.mp (by omega), h.2.2⟩

theorem flatMap_charUnits_inj {cs ds : List Char}
    (h : cs.flatMap charUnits = ds.flatMap charUnits) : cs = ds := by
  induction cs generalizing ds with
  | nil =>
    cases ds with
    | nil => rfl
    | cons d ds =>
      rw [List.flatMap_nil, List.flatMap_cons] at h
      exact absurd (List.append_eq_nil_iff.mp h.symm).1 (charUnits_ne_nil d)
  | cons c cs ih =>
    cases ds with
    | nil =>
      rw [List.flatMap_nil, List.flatMap_cons] at h
      exact absurd (List.append_eq_nil_iff.mp h).1 (charUnits_ne_nil c)
    | cons d ds =>
      rw [List.flatMap_cons, List.flatMap_cons] at h
      obtain ⟨rfl, rest⟩ := charUnits_append_inj h
      rw [ih rest]

/-- The code units of a text tell it apart. -/
theorem units_injective {s t : String} (h : units s = units t) : s = t :=
  String.toList_injective (flatMap_charUnits_inj h)

/-! ## The order of texts -/

theorem compareUnits_eq_compareLex (as bs : List UInt16) :
    compareUnits as bs = List.compareLex compare as bs := by
  induction as generalizing bs with
  | nil => cases bs <;> rfl
  | cons a as ih =>
    cases bs with
    | nil => rfl
    | cons b bs =>
      rw [compareUnits, List.compareLex_cons_cons, ih]
      change _ = (compareOfLessAndEq a b).then _
      by_cases lt : a < b
      · simp [compareOfLessAndEq, lt]
      · by_cases eq : a = b
        · simp [compareOfLessAndEq, eq]
        · have gt : b < a := UInt16.lt_of_le_of_ne (UInt16.not_lt.mp lt) (Ne.symm eq)
          simp [compareOfLessAndEq, lt, eq, gt]

theorem order_eq_compareLex (s t : String) :
    order s t = List.compareLex compare (units s) (units t) :=
  compareUnits_eq_compareLex _ _

instance : TransCmp order where
  eq_swap {s t} := by
    rw [order_eq_compareLex, order_eq_compareLex]
    exact OrientedCmp.eq_swap
  isLE_trans {s t u} hst htu := by
    rw [order_eq_compareLex] at hst htu ⊢
    exact TransCmp.isLE_trans hst htu

instance : LawfulEqCmp order where
  compare_self {s} := by
    rw [order_eq_compareLex]
    exact Std.ReflCmp.compare_self
  eq_of_compare {s t} h := by
    rw [order_eq_compareLex] at h
    exact units_injective (LawfulEqCmp.eq_of_compare h)

end Text

/-! ## The order of symbols and keywords -/

namespace Symbol

instance : TransCmp order where
  eq_swap {a b} := by
    cases ha : a.ns? <;> cases hb : b.ns? <;> simp only [order, ha, hb]
    · exact OrientedCmp.eq_swap
    · rfl
    · rfl
    · rw [Ordering.swap_then, ← OrientedCmp.eq_swap, ← OrientedCmp.eq_swap]
  isLE_trans {a b c} hab hbc := by
    cases ha : a.ns? <;> cases hb : b.ns? <;> cases hc : c.ns? <;>
      simp only [order, ha, hb, hc] at hab hbc ⊢
    case none.none.none => exact TransCmp.isLE_trans hab hbc
    case some.some.some x y z =>
      rw [Ordering.isLE_then_iff_and] at hab hbc ⊢
      obtain ⟨xy, hab⟩ := hab
      obtain ⟨yz, hbc⟩ := hbc
      refine ⟨TransCmp.isLE_trans xy yz, ?_⟩
      rcases hab with xy' | names
      · exact Or.inl (TransCmp.lt_of_lt_of_isLE xy' yz)
      · rcases hbc with yz' | names'
        · exact Or.inl (TransCmp.lt_of_isLE_of_lt xy yz')
        · exact Or.inr (TransCmp.isLE_trans names names')
    all_goals first | rfl | exact absurd hab (by decide) | exact absurd hbc (by decide)

instance : LawfulEqCmp order where
  compare_self {a} := by
    cases ha : a.ns? with
    | none =>
      simp only [order, ha]
      exact Std.ReflCmp.compare_self
    | some x => simp [order, ha, Std.ReflCmp.compare_self]
  eq_of_compare {a b} h := by
    obtain ⟨ns, name⟩ := a
    obtain ⟨ns', name'⟩ := b
    cases ns <;> cases ns' <;> simp only [order] at h
    · rw [LawfulEqCmp.eq_of_compare h]
    · cases h
    · cases h
    · rw [Ordering.then_eq_eq] at h
      rw [LawfulEqCmp.eq_of_compare h.1, LawfulEqCmp.eq_of_compare h.2]

end Symbol

end ValueCore
