import ValueCore.Proofs.Value.LeafOrder
/-!
# Code units and code points

Texts are ordered by code unit.  This is the order by code point (`Text.pointOrder`) but for one
thing.  A character above `U+FFFF` is a pair of surrogates, and those are below the units from
`U+E000` on.  So a pair stands below a character from `U+E000` to `U+FFFF`, although its code point
is the greater one.  Two such characters are *crossed*.

Where two texts first differ, their code units first differ within the two characters there
(`Text.compareUnits_charUnits`).  So the order by code unit is lexicographic in the characters, with
crossed characters turned around (`Text.order_eq_compareLex_unitOrder`), and what comes after the
first difference does not matter.

Symbols and keywords without a namespace have the order of their names, and the natural order of
values answers the same for texts, symbols and keywords (`Value.names_ordered_alike`).
-/

namespace ValueCore

open Std (OrientedCmp LawfulEqCmp)

namespace Text

/-! ## Characters -/

/-- A character is a pair of surrogates. -/
def Paired (c : Char) : Prop := 0xFFFF < c.toNat

/-- A character is one unit, which is above the surrogates. -/
def AboveSurrogates (c : Char) : Prop := 0xE000 ≤ c.toNat ∧ c.toNat ≤ 0xFFFF

/-- One of two characters is a pair of surrogates and the other one is above the surrogates. -/
def Crossed (c d : Char) : Prop :=
  Paired c ∧ AboveSurrogates d ∨ AboveSurrogates c ∧ Paired d

instance (c : Char) : Decidable (Paired c) := inferInstanceAs (Decidable (_ < _))

instance (c : Char) : Decidable (AboveSurrogates c) := inferInstanceAs (Decidable (_ ∧ _))

instance (c d : Char) : Decidable (Crossed c d) := inferInstanceAs (Decidable (_ ∨ _))

/-- The order of characters by their code units. -/
def unitOrder (c d : Char) : Ordering :=
  if Crossed c d then (charOrder c d).swap else charOrder c d

theorem charUnits_of_small {c : Char} (small : c.toNat ≤ 0xFFFF) :
    charUnits c = [c.toNat.toUInt16] := by
  rw [charUnits, if_pos (Nat.lt_succ_of_le small)]

/-- The surrogates of a pair share out its code point. -/
theorem charUnits_of_paired {c : Char} (paired : Paired c) :
    ∃ high low : Nat, charUnits c = [high.toUInt16, low.toUInt16] ∧
      0xD800 ≤ high ∧ high < 0xDC00 ∧ 0xDC00 ≤ low ∧ low < 0xE000 ∧
      (high - 0xD800) * 0x400 + (low - 0xDC00) + 0x10000 = c.toNat := by
  have bound := toNat_bounds c
  have large : ¬ c.toNat < 0x10000 := Nat.not_lt_of_le paired
  exact ⟨0xD800 + (c.toNat - 0x10000) / 0x400, 0xDC00 + (c.toNat - 0x10000) % 0x400,
    by rw [charUnits, if_neg large], by omega, by omega, by omega, by omega, by omega⟩

theorem compareUnits_toUInt16 {m n : Nat} (hm : m < 0x10000) (hn : n < 0x10000)
    (us vs : List UInt16) :
    compareUnits (m.toUInt16 :: us) (n.toUInt16 :: vs) =
      if m < n then .lt else if n < m then .gt else compareUnits us vs := by
  have left : m.toUInt16.toNat = m := by
    rw [Nat.toUInt16_eq, UInt16.toNat_ofNat_of_lt' hm]
  have right : n.toUInt16.toNat = n := by
    rw [Nat.toUInt16_eq, UInt16.toNat_ofNat_of_lt' hn]
  simp only [compareUnits, UInt16.lt_iff_toNat_lt, left, right]

theorem compareUnits_swap (as bs : List UInt16) :
    compareUnits as bs = (compareUnits bs as).swap := by
  rw [compareUnits_eq_compareLex, compareUnits_eq_compareLex]
  exact OrientedCmp.eq_swap

/-- Where the lower one of two characters stands by its code units. -/
theorem compareUnits_of_lt {c d : Char} (lt : c.toNat < d.toNat) (us vs : List UInt16) :
    compareUnits (charUnits c ++ us) (charUnits d ++ vs) =
      if AboveSurrogates c ∧ Paired d then .gt else .lt := by
  have bound := toNat_bounds c
  by_cases small : d.toNat ≤ 0xFFFF
  · have single : ¬ (AboveSurrogates c ∧ Paired d) := fun h => Nat.not_lt_of_le small h.2
    rw [charUnits_of_small small, charUnits_of_small (by omega), if_neg single]
    simp only [List.cons_append, List.nil_append]
    rw [compareUnits_toUInt16 (by omega) (by omega), if_pos lt]
  · obtain ⟨high, low, units, highBound, highBound', lowBound, lowBound', point⟩ :=
      charUnits_of_paired (Nat.lt_of_not_le small)
    rw [units]
    by_cases small' : c.toNat ≤ 0xFFFF
    · rw [charUnits_of_small small']
      simp only [List.cons_append, List.nil_append]
      rw [compareUnits_toUInt16 (by omega) (by omega)]
      by_cases above : 0xE000 ≤ c.toNat
      · rw [if_neg (by omega), if_pos (by omega), if_pos ⟨⟨above, small'⟩, Nat.lt_of_not_le small⟩]
      · rw [if_pos (by omega), if_neg fun h => above h.1.1]
    · obtain ⟨high', low', units', highBound₁, highBound₁', lowBound₁, lowBound₁', point'⟩ :=
        charUnits_of_paired (Nat.lt_of_not_le small')
      rw [units', if_neg fun h => small' h.1.2]
      simp only [List.cons_append, List.nil_append]
      rw [compareUnits_toUInt16 (by omega) (by omega)]
      by_cases higher : high' < high
      · rw [if_pos higher]
      · rw [if_neg higher, if_neg (by omega), compareUnits_toUInt16 (by omega) (by omega),
          if_pos (by omega)]

theorem crossed_comm {c d : Char} : Crossed d c ↔ Crossed c d := by
  simp only [Crossed]
  tauto

theorem unitOrder_swap (c d : Char) : unitOrder d c = (unitOrder c d).swap := by
  have turned : charOrder d c = (charOrder c d).swap := OrientedCmp.eq_swap
  simp only [unitOrder, crossed_comm, turned]
  split <;> rfl

theorem unitOrder_of_lt {c d : Char} (lt : c.toNat < d.toNat) :
    unitOrder c d = if AboveSurrogates c ∧ Paired d then .gt else .lt := by
  have below : charOrder c d = .lt := by rw [charOrder, if_pos lt]
  have once : ¬ (Paired c ∧ AboveSurrogates d) := by
    rintro ⟨paired, above⟩
    exact Nat.lt_asymm lt (Nat.lt_of_le_of_lt above.2 paired)
  simp only [unitOrder, Crossed, below, once, false_or, Ordering.swap]

/-- The code units of two characters differ within the characters, whatever comes after. -/
theorem compareUnits_charUnits {c d : Char} (different : c ≠ d) (us vs : List UInt16) :
    compareUnits (charUnits c ++ us) (charUnits d ++ vs) = unitOrder c d := by
  rcases Nat.lt_or_gt_of_ne (mt Char.toNat_inj.mp different) with lt | gt
  · rw [compareUnits_of_lt lt, unitOrder_of_lt lt]
  · rw [compareUnits_swap, compareUnits_of_lt gt, ← unitOrder_of_lt gt, ← unitOrder_swap]

instance : LawfulEqCmp unitOrder where
  compare_self {c} := by
    have alone : ¬ Crossed c c := by
      simp only [Crossed, Paired, AboveSurrogates]
      omega
    rw [unitOrder, if_neg alone]
    exact Std.ReflCmp.compare_self
  eq_of_compare {c d} h := by
    rw [unitOrder] at h
    split at h
    · exact LawfulEqCmp.eq_of_compare (Ordering.swap_eq_eq.mp h)
    · exact LawfulEqCmp.eq_of_compare h

/-! ## The first difference -/

/-- Two lists of characters first differ in two characters. -/
def PartAt (cs ds : List Char) (c d : Char) : Prop :=
  c ≠ d ∧ ∃ common after after', cs = common ++ c :: after ∧ ds = common ++ d :: after'

section Parting

variable {cs ds : List Char} {c d : Char} {cmp cmp' : Char → Char → Ordering}

theorem PartAt.cons (h : PartAt cs ds c d) (e : Char) : PartAt (e :: cs) (e :: ds) c d := by
  obtain ⟨different, common, after, after', rfl, rfl⟩ := h
  exact ⟨different, e :: common, after, after', rfl, rfl⟩

/-- The first difference decides. -/
theorem compareLex_of_partAt [LawfulEqCmp cmp] (h : PartAt cs ds c d) :
    List.compareLex cmp cs ds = cmp c d := by
  obtain ⟨different, common, after, after', rfl, rfl⟩ := h
  induction common with
  | nil =>
    have decided : cmp c d ≠ .eq := mt LawfulEqCmp.eq_of_compare different
    simp only [List.nil_append, List.compareLex_cons_cons]
    cases answer : cmp c d with
    | eq => exact absurd answer decided
    | lt => rfl
    | gt => rfl
  | cons e common ih =>
    simp only [List.cons_append, List.compareLex_cons_cons, Std.ReflCmp.compare_self]
    exact ih

/-- Without a difference it does not matter how characters are ordered. -/
theorem exists_partAt_or_compareLex_eq [LawfulEqCmp cmp] [LawfulEqCmp cmp'] (cs ds : List Char) :
    (∃ c d, PartAt cs ds c d) ∨ List.compareLex cmp cs ds = List.compareLex cmp' cs ds := by
  induction cs generalizing ds with
  | nil =>
    right
    cases ds <;> rfl
  | cons c cs ih =>
    cases ds with
    | nil => exact .inr rfl
    | cons d ds =>
      by_cases same : c = d
      · subst same
        simp only [List.compareLex_cons_cons, Std.ReflCmp.compare_self]
        rcases ih ds with ⟨c', d', later⟩ | same
        · exact .inl ⟨c', d', later.cons c⟩
        · exact .inr same
      · exact .inl ⟨c, d, same, [], cs, ds, rfl, rfl⟩

end Parting

/-! ## Texts -/

/-- The order of texts by code point. -/
def pointOrder (s t : String) : Ordering := List.compareLex charOrder s.toList t.toList

theorem compareUnits_append_left (us as bs : List UInt16) :
    compareUnits (us ++ as) (us ++ bs) = compareUnits as bs := by
  induction us with
  | nil => rfl
  | cons u us ih => simp [compareUnits, ih]

/-- Texts are ordered by their characters, and those by their code units. -/
theorem order_eq_compareLex_unitOrder (s t : String) :
    order s t = List.compareLex unitOrder s.toList t.toList := by
  rw [order, units, units]
  generalize s.toList = cs
  generalize t.toList = ds
  induction cs generalizing ds with
  | nil =>
    cases ds with
    | nil => rfl
    | cons d ds =>
      obtain ⟨u, us, first⟩ := List.exists_cons_of_ne_nil (charUnits_ne_nil d)
      rw [List.flatMap_cons, first]
      rfl
  | cons c cs ih =>
    cases ds with
    | nil =>
      obtain ⟨u, us, first⟩ := List.exists_cons_of_ne_nil (charUnits_ne_nil c)
      rw [List.flatMap_cons, first]
      rfl
    | cons d ds =>
      rw [List.flatMap_cons, List.flatMap_cons]
      by_cases same : c = d
      · subst same
        have tie : unitOrder c c = .eq := Std.ReflCmp.compare_self
        rw [compareUnits_append_left, ih, List.compareLex_cons_cons, tie, Ordering.eq_then]
      · rw [compareUnits_charUnits same]
        exact (compareLex_of_partAt ⟨same, [], cs, ds, rfl, rfl⟩).symm

theorem order_of_crossed {s t : String} {c d : Char} (part : PartAt s.toList t.toList c d)
    (crossed : Crossed c d) : order s t = (pointOrder s t).swap := by
  rw [order_eq_compareLex_unitOrder, pointOrder, compareLex_of_partAt part,
    compareLex_of_partAt part, unitOrder, if_pos crossed]

theorem order_of_not_crossed {s t : String}
    (straight : ∀ c d, PartAt s.toList t.toList c d → ¬ Crossed c d) :
    order s t = pointOrder s t := by
  rw [order_eq_compareLex_unitOrder, pointOrder]
  have parts : (∃ c d, PartAt s.toList t.toList c d) ∨
      List.compareLex unitOrder s.toList t.toList = List.compareLex charOrder s.toList t.toList :=
    exists_partAt_or_compareLex_eq s.toList t.toList
  rcases parts with ⟨c, d, part⟩ | same
  · rw [compareLex_of_partAt part, compareLex_of_partAt part, unitOrder,
      if_neg (straight c d part)]
  · exact same

end Text

/-! ## Names -/

namespace Value

open Text (PartAt Crossed pointOrder)

variable {s t : String} {i j : Nat} {k l : Keyword}

theorem compare_str (shared : i = j → s = t) :
    compare (.str i s) (.str j t) = .ok (signOfOrdering (Text.order s t)) := by
  rw [compare, compareSharing]
  split
  · next same =>
    have tie : Text.order s s = .eq := Std.ReflCmp.compare_self
    rw [← shared (beq_iff_eq.mp same), tie]
    rfl
  · rfl

theorem compare_kw (interned : k.cell = l.cell → k.symbol = l.symbol) :
    compare (.kw k) (.kw l) = .ok (signOfOrdering (k.order l)) := by
  rw [compare, compareSharing]
  split
  · next same =>
    have tie : l.symbol.order l.symbol = .eq := Std.ReflCmp.compare_self
    rw [Keyword.order, interned (beq_iff_eq.mp same), tie]
    rfl
  · rfl

/-- Texts, and the symbols and keywords that they name, have one order.  It ties on equal texts
alone.  It is the order by code point, turned around if the characters in which the texts first
differ are crossed. -/
theorem names_ordered_alike (shared : i = j → s = t)
    (interned : k.cell = l.cell → k.symbol = l.symbol) (hk : k.symbol = ⟨none, s⟩)
    (hl : l.symbol = ⟨none, t⟩) :
    ∃ o : Ordering,
      compare (.str i s) (.str j t) = .ok (signOfOrdering o) ∧
      Symbol.order ⟨none, s⟩ ⟨none, t⟩ = o ∧
      compare (.sym ⟨none, s⟩) (.sym ⟨none, t⟩) = .ok (signOfOrdering o) ∧
      k.order l = o ∧
      compare (.kw k) (.kw l) = .ok (signOfOrdering o) ∧
      (o = .eq ↔ s = t) ∧
      (∀ c d, PartAt s.toList t.toList c d → Crossed c d → o = (pointOrder s t).swap) ∧
      ((∀ c d, PartAt s.toList t.toList c d → ¬ Crossed c d) → o = pointOrder s t) := by
  have names : k.order l = Text.order s t := by
    rw [Keyword.order, hk, hl]
    rfl
  refine ⟨Text.order s t, compare_str shared, rfl, rfl, names, ?_, ?_, ?_, ?_⟩
  · rw [compare_kw interned, names]
  · constructor
    · exact LawfulEqCmp.eq_of_compare
    · intro same
      subst same
      exact Std.ReflCmp.compare_self
  · intro c d part crossed
    exact Text.order_of_crossed part crossed
  · intro straight
    exact Text.order_of_not_crossed straight

/-- A pair of surrogates stands below `U+FFFF` in texts, symbols and keywords. -/
theorem names_ordered_alike_crossed :
    let k := Keyword.ofSymbol 0 ⟨none, "a\uffff"⟩
    let l := Keyword.ofSymbol 1 ⟨none, "a😀"⟩
    compare (.str 0 "a\uffff") (.str 1 "a😀") = .ok 1 ∧
      compare (.sym k.symbol) (.sym l.symbol) = .ok 1 ∧ compare (.kw k) (.kw l) = .ok 1 ∧
      pointOrder "a\uffff" "a😀" = .lt := by
  intro k l
  have points : pointOrder "a\uffff" "a😀" = .lt := by decide
  have part : PartAt "a\uffff".toList "a😀".toList '\uffff' '😀' :=
    ⟨by decide, ['a'], [], [], by decide, by decide⟩
  obtain ⟨o, texts, -, symbols, -, keywords, -, turned, -⟩ :=
    names_ordered_alike (s := "a\uffff") (t := "a😀") (i := 0) (j := 1) (k := k) (l := l)
      (fun same => absurd same (by decide)) (fun same => absurd same (by decide)) rfl rfl
  obtain rfl := turned _ _ part (by decide)
  rw [points] at texts symbols keywords
  exact ⟨texts, symbols, keywords, points⟩

end Value

end ValueCore
