import ValueCore.Proofs.Value.Equivalence
import ValueCore.Proofs.Value.LeafOrder
/-!
# The natural order is a partial order

Values that are identical as they lie are level, whatever they are.  Other values have an order
in one of a few ways, which `Compares` lists: beside nil, as leaves of one kind, or as vectors,
by length first and then element by element.  `compareAt_eq_ok_iff` says that there are no more.
The laws are inversions of `Compares`, and each passes from the elements in their spots to the
vectors.

* `turns`: a comparison that succeeds does so in the other direction, with the opposite
  sign.
* `chains`: what is not above is transitive, if there is no NaN.
* `ties`: what is level is equivalent and the converse, if there is no NaN.

In a chain, identical values stand for one another, since they are twins
(`Twin.compareSharing_left`).  That is how lists, maps and functions take part, which have no
order otherwise.

All laws are about values as they lie (`compareAt`), in any layout.  `compare` is the case of values
in no place, where only clones share the places of their elements (`Layout.own`).
-/

namespace ValueCore.Value

/-! ## What a comparison compares -/

/-- The sign between two leaves of one kind. -/
def leafSign? : Value → Value → Option Int
  | .num x, .num y => some (x.compare y)
  | .bool x, .bool y => some (signOfOrdering (boolOrder x y))
  | .char x, .char y => some (signOfOrdering (charOrder x y))
  | .str _ x, .str _ y => some (signOfOrdering (Text.order x y))
  | .sym x, .sym y => some (signOfOrdering (x.order y))
  | .kw x, .kw y => some (signOfOrdering (x.symbol.order y.symbol))
  | _, _ => none

/-- The first comparison that is not `0` of values as they lie. -/
def firstSign (same : Places) (xs ys : List Placed) : Except Error Int :=
  match xs, ys with
  | x :: xs, y :: ys =>
    match compareAt same x.1 y.1 x.2 y.2 with
    | .error e => .error e
    | .ok c => if c = 0 then firstSign same xs ys else .ok c
  | _, _ => .ok 0

theorem compareElements_eq_firstSign {same : Places} {home : Option Allocation} {i : Nat}
    {xs : List Value} {ys : List Placed} :
    compareElements same home i xs ys = firstSign same (placed home i xs) ys := by
  induction xs generalizing i ys with
  | nil => rfl
  | cons x xs ih =>
    cases ys with
    | nil => rfl
    | cons y ys =>
      rw [compareElements, ih]
      rfl

/-- The ways in which two values that are not identical have an order. -/
inductive Compares (same : Places) : Value → Value → Int → Prop where
  | below {b : Value} (h : b ≠ .nil) : Compares same .nil b (-1)
  | above {a : Value} (h : a ≠ .nil) : Compares same a .nil 1
  | leaf {a b : Value} {r : Int} (h : leafSign? a b = some r) : Compares same a b r
  | shorter {i j : Nat} {xs ys : List Value} {m m' : Option Metadata}
      (h : xs.length < ys.length) :
      Compares same (.seq .vector i xs m) (.seq .vector j ys m') (-1)
  | longer {i j : Nat} {xs ys : List Value} {m m' : Option Metadata}
      (h : ys.length < xs.length) :
      Compares same (.seq .vector i xs m) (.seq .vector j ys m') 1
  | elements {i j : Nat} {xs ys : List Value} {m m' : Option Metadata} {r : Int}
      (length : xs.length = ys.length)
      (h : firstSign same (placed (some (.sequence i)) 0 xs)
        (placed (some (.sequence j)) 0 ys) = .ok r) :
      Compares same (.seq .vector i xs m) (.seq .vector j ys m') r

/-- A comparison that is no object's succeeds for identical values and in these ways. -/
theorem compareSharing_eq_ok_iff {same : Places} {a b : Value} {r : Int}
    (ha : a.isObject = false) :
    compareSharing same a b = .ok r ↔
      if identical a b = true then r = 0 else Compares same a b r := by
  rw [compareSharing.eq_def]
  by_cases ident : identical a b = true
  · simp only [ident, if_true, Except.ok.injEq]
    exact eq_comm
  · rw [if_neg ident, if_neg ident]
    constructor
    · intro h
      split at h
      all_goals try cases h
      · exact .below (by rintro rfl; exact ident rfl)
      · exact .above (by assumption)
      · exact .leaf rfl
      · exact .leaf rfl
      · exact .leaf rfl
      · exact .leaf rfl
      · exact .leaf rfl
      · exact .leaf rfl
      · split at h
        · next length => exact .elements length (compareElements_eq_firstSign ▸ h)
        · next length =>
          split at h
          · next lt =>
            cases h
            exact .shorter lt
          · cases h
            exact .longer (by omega)
      · cases ha
    · intro h
      cases h with
      | below h => rfl
      | above h => cases a <;> first | rfl | exact absurd rfl h
      | leaf h => cases a <;> cases b <;> cases h <;> rfl
      | shorter h => simp only [Nat.ne_of_lt h, h, if_false, if_true]
      | longer h => simp only [Nat.ne_of_gt h, Nat.lt_asymm h, if_false]
      | elements length h => simp only [length, if_true, compareElements_eq_firstSign, h]

/-- The same for values that may lie in one place. -/
theorem compareAt_eq_ok_iff {same : Places} {s t : Option Spot} {a b : Value} {r : Int}
    (ha : a.isObject = false) :
    compareAt same s t a b = .ok r ↔
      if identicalAt (same.meet s t) a b = true then r = 0 else Compares same a b r := by
  rw [compareAt, identicalAt]
  cases same.meet s t with
  | true =>
    simp only [if_true, Bool.true_or, Except.ok.injEq]
    exact eq_comm
  | false => exact compareSharing_eq_ok_iff ha

/-! ## Leaves -/

section Leaves

variable {a b c : Value} {r s : Int}

theorem leafSign?_swap (h : leafSign? a b = some r) :
    leafSign? b a = some (-r) ∧ (r = -1 ∨ r = 0 ∨ r = 1) := by
  cases a <;> cases b <;> cases h
  case num.num x y => exact ⟨congrArg some (Number.compare_swap x y), Number.compare_range x y⟩
  all_goals exact ⟨congrArg some (signOrder_of_transCmp.swap _ _),
    signOrder_of_transCmp.range _ _⟩

theorem leafSign?_trans (na : a.isNaN = false) (nb : b.isNaN = false) (nc : c.isNaN = false)
    (h : leafSign? a b = some r) (h' : leafSign? b c = some s) (hr : r ≤ 0) (hs : s ≤ 0) :
    ∃ t, leafSign? a c = some t ∧ t ≤ 0 ∧ (t = 0 → r = 0 ∧ s = 0) := by
  cases a <;> cases b <;> cases h <;> cases c <;> cases h'
  case num.num.refl.num.refl x y z =>
    exact ⟨_, rfl, Number.signOrder_compare.trans na nb nc hr hs⟩
  all_goals exact ⟨_, rfl, signOrder_of_transCmp.trans trivial trivial trivial hr hs⟩

end Leaves

/-! ## Turning a comparison around -/

/-- A comparison that succeeds does so in the other direction, with the opposite sign. -/
def Turns (same : Places) (x y : Placed) : Prop :=
  ∀ r, compareAt same x.1 y.1 x.2 y.2 = .ok r →
    compareAt same y.1 x.1 y.2 x.2 = .ok (-r) ∧ (r = -1 ∨ r = 0 ∨ r = 1)

section Same

variable {same : Places}

theorem firstSign_swap {xs ys : List Placed} (turns : ∀ x ∈ xs, ∀ y ∈ ys, Turns same x y)
    {r : Int} (length : xs.length = ys.length) (h : firstSign same xs ys = .ok r) :
    firstSign same ys xs = .ok (-r) ∧ (r = -1 ∨ r = 0 ∨ r = 1) := by
  induction xs generalizing ys with
  | nil =>
    cases ys with
    | nil =>
      cases h
      exact ⟨rfl, Or.inr (Or.inl rfl)⟩
    | cons y ys => cases length
  | cons x xs ih =>
    cases ys with
    | nil => cases length
    | cons y ys =>
      rw [firstSign] at h
      cases first : compareAt same x.1 y.1 x.2 y.2 with
      | error e => simp [first] at h
      | ok c =>
        obtain ⟨back, range⟩ := turns x List.mem_cons_self y List.mem_cons_self c first
        simp only [first] at h
        simp only [firstSign, back]
        by_cases level : c = 0
        · rw [if_pos level] at h
          rw [if_pos (by omega)]
          refine ih (fun x' hx y' hy => ?_) (Nat.succ.inj length) h
          exact turns x' (List.mem_cons_of_mem _ hx) y' (List.mem_cons_of_mem _ hy)
        · rw [if_neg level] at h
          rw [if_neg (by omega)]
          cases h
          exact ⟨rfl, range⟩

theorem Compares.swap {a b : Value} {r : Int}
    (turns : ∀ x y, a.HasChild x → b.HasChild y → Turns same x y) (h : Compares same a b r) :
    Compares same b a (-r) ∧ (r = -1 ∨ r = 0 ∨ r = 1) := by
  cases h with
  | below h => exact ⟨.above h, Or.inl rfl⟩
  | above h => exact ⟨.below h, Or.inr (Or.inr rfl)⟩
  | leaf h =>
    obtain ⟨back, range⟩ := leafSign?_swap h
    exact ⟨.leaf back, range⟩
  | shorter h => exact ⟨.longer h, Or.inl rfl⟩
  | longer h => exact ⟨.shorter h, Or.inr (Or.inr rfl)⟩
  | elements length h =>
    obtain ⟨back, range⟩ := firstSign_swap
      (fun x hx y hy => turns x y (hasChild_of_elements rfl hx) (hasChild_of_elements rfl hy))
      (by rw [length_placed, length_placed, length]) h
    exact ⟨.elements length.symm back, range⟩

/-! ## Chains of comparisons -/

/-- What is not above is transitive, and level at the ends only if level throughout. -/
def Chains (same : Places) (x y z : Placed) : Prop :=
  ∀ r s, compareAt same x.1 y.1 x.2 y.2 = .ok r → compareAt same y.1 z.1 y.2 z.2 = .ok s →
    r ≤ 0 → s ≤ 0 →
    ∃ t, compareAt same x.1 z.1 x.2 z.2 = .ok t ∧ t ≤ 0 ∧ (t = 0 → r = 0 ∧ s = 0)

theorem firstSign_trans {xs ys zs : List Placed}
    (chains : ∀ x ∈ xs, ∀ y ∈ ys, ∀ z ∈ zs, Chains same x y z) {r s : Int}
    (length : xs.length = ys.length) (length' : ys.length = zs.length)
    (h : firstSign same xs ys = .ok r) (h' : firstSign same ys zs = .ok s) (hr : r ≤ 0)
    (hs : s ≤ 0) :
    ∃ t, firstSign same xs zs = .ok t ∧ t ≤ 0 ∧ (t = 0 → r = 0 ∧ s = 0) := by
  induction xs generalizing ys zs with
  | nil =>
    cases ys with
    | cons y ys => cases length
    | nil =>
      cases h
      cases h'
      exact ⟨0, rfl, le_refl 0, fun _ => ⟨rfl, rfl⟩⟩
  | cons x xs ih =>
    cases ys with
    | nil => cases length
    | cons y ys =>
      cases zs with
      | nil => cases length'
      | cons z zs =>
        rw [firstSign] at h h'
        cases first : compareAt same x.1 y.1 x.2 y.2 with
        | error e => simp [first] at h
        | ok c =>
          cases first' : compareAt same y.1 z.1 y.2 z.2 with
          | error e => simp [first'] at h'
          | ok d =>
            simp only [first] at h
            simp only [first'] at h'
            -- a sign that is not zero is the answer, so neither element is above the next
            have hc : c ≤ 0 := by
              by_cases level : c = 0
              · omega
              · rw [if_neg level] at h
                cases h
                exact hr
            have hd : d ≤ 0 := by
              by_cases level : d = 0
              · omega
              · rw [if_neg level] at h'
                cases h'
                exact hs
            obtain ⟨e, ends, he, tie⟩ := chains x List.mem_cons_self y List.mem_cons_self z
              List.mem_cons_self c d first first' hc hd
            simp only [firstSign, ends]
            by_cases level : e = 0
            · obtain ⟨rfl, rfl⟩ := tie level
              rw [if_pos rfl] at h h'
              rw [if_pos level]
              refine ih (fun x' hx y' hy z' hz => ?_) (Nat.succ.inj length)
                (Nat.succ.inj length') h h'
              exact chains x' (List.mem_cons_of_mem _ hx) y' (List.mem_cons_of_mem _ hy) z'
                (List.mem_cons_of_mem _ hz)
            · rw [if_neg level]
              exact ⟨e, rfl, he, fun zero => absurd zero level⟩

theorem Compares.trans {a b c : Value} {r s : Int}
    (chains : ∀ x y z, a.HasChild x → b.HasChild y → c.HasChild z → Chains same x y z)
    (na : a.isNaN = false) (nb : b.isNaN = false) (nc : c.isNaN = false)
    (h : Compares same a b r) (h' : Compares same b c s) (hr : r ≤ 0) (hs : s ≤ 0) :
    ∃ t, Compares same a c t ∧ t ≤ 0 ∧ (t = 0 → r = 0 ∧ s = 0) := by
  cases h with
  | below hb =>
    refine ⟨-1, .below ?_, by decide, fun zero => by cases zero⟩
    rintro rfl
    cases h' with
    | below hc => exact hb rfl
    | above _ => exact absurd hs (by decide)
    | leaf h' => cases b <;> cases h'
  | above _ => exact absurd hr (by decide)
  | leaf h =>
    cases h' with
    | below _ => cases a <;> cases h
    | above _ => exact absurd hs (by decide)
    | leaf h' =>
      obtain ⟨t, ends, le, tie⟩ := leafSign?_trans na nb nc h h' hr hs
      exact ⟨t, .leaf ends, le, tie⟩
    | shorter _ => cases a <;> cases h
    | longer _ => cases a <;> cases h
    | elements _ _ => cases a <;> cases h
  | longer _ => exact absurd hr (by decide)
  | shorter h =>
    cases h' with
    | above _ => exact absurd hs (by decide)
    | leaf h' => cases c <;> cases h'
    | longer _ => exact absurd hs (by decide)
    | shorter h' => exact ⟨-1, .shorter (by omega), by decide, fun zero => by cases zero⟩
    | elements length _ =>
      exact ⟨-1, .shorter (by omega), by decide, fun zero => by cases zero⟩
  | elements length h =>
    cases h' with
    | above _ => exact absurd hs (by decide)
    | leaf h' => cases c <;> cases h'
    | longer _ => exact absurd hs (by decide)
    | shorter h' => exact ⟨-1, .shorter (by omega), by decide, fun zero => by cases zero⟩
    | elements length' h' =>
      obtain ⟨t, ends, le, tie⟩ := firstSign_trans
        (fun x hx y hy z hz => chains x y z (hasChild_of_elements rfl hx)
          (hasChild_of_elements rfl hy) (hasChild_of_elements rfl hz))
        (by rw [length_placed, length_placed, length])
        (by rw [length_placed, length_placed, length']) h h' hr hs
      exact ⟨t, .elements (length.trans length') ends, le, tie⟩

/-! ## Twins -/

theorem Twin.compareSharing_left {a b : Value} (h : Twin a b) (c : Value) :
    compareSharing same a c = compareSharing same b c := by
  rw [compareSharing.eq_def, compareSharing.eq_def same b, h.identical_left]
  cases h with
  | same => rfl
  | @seq f =>
    cases f <;> cases c with
    | seq g => cases g <;> rfl
    | _ => rfl
  | map => cases c <;> rfl
  | set => cases c <;> rfl
  | fn h => cases c <;> rfl

/-- Twins are level, if they have an order. -/
theorem Compares.eq_zero_of_twin {a b : Value} {r : Int} (twin : Twin a b)
    (turns : ∀ x y, a.HasChild x → a.HasChild y → Turns same x y) (h : Compares same a b r) :
    r = 0 := by
  cases h with
  | below h =>
    cases twin
    exact absurd rfl h
  | above h =>
    cases twin
    exact absurd rfl h
  | leaf h =>
    cases twin with
    | same =>
      have back := (leafSign?_swap h).1
      rw [h, Option.some.injEq] at back
      omega
    | _ => cases h
  | shorter h => cases twin <;> exact absurd h (Nat.lt_irrefl _)
  | longer h => cases twin <;> exact absurd h (Nat.lt_irrefl _)
  | @elements i j xs ys m m' r length level =>
    have self : firstSign same (placed (some (.sequence i)) 0 xs)
        (placed (some (.sequence i)) 0 xs) = .ok r → r = 0 := by
      intro level
      have back : firstSign same (placed (some (.sequence i)) 0 xs)
          (placed (some (.sequence i)) 0 xs) = .ok (-r) :=
        (firstSign_swap (fun x hx y hy => turns x y (hasChild_of_elements rfl hx)
          (hasChild_of_elements rfl hy)) rfl level).1
      rw [level, Except.ok.injEq] at back
      omega
    cases twin with
    | same => exact self level
    | seq => exact self level

end Same

section Layout

variable {μ : Memory} {L : Layout μ} {a b c : Value} {s t u : Option Spot} {m n : Int}

/-! ## The laws -/

/-- If a comparison succeeds, so does the one in the other direction. -/
theorem turns (ha : μ.Contains a) (hb : μ.Contains b) (ba : Builtin a) (bb : Builtin b) :
    Turns L.same (s, a) (t, b) := by
  induction a using children_induction generalizing b s t with
  | step a ih =>
    intro r h
    rw [compareAt_eq_ok_iff ba.here] at h
    rw [compareAt_eq_ok_iff bb.here]
    by_cases one : identicalAt (L.same.meet s t) a b = true
    · rw [if_pos one] at h
      rw [if_pos (identicalAt_symm ha.here hb.here one)]
      subst h
      exact ⟨rfl, Or.inr (Or.inl rfl)⟩
    · rw [if_neg one] at h
      rw [if_neg fun back => one (identicalAt_symm hb.here ha.here back)]
      refine h.swap fun x y hx hy => ?_
      exact ih x.2 hx.1 (ha.child hx.1) (hb.child hy.1) (ba.child hx.1) (bb.child hy.1)

/-- Twins are level where they can be compared. -/
theorem eq_zero_of_twin (ha : μ.Contains a) (ba : Builtin a) (twin : Twin a b)
    (h : compareAt L.same s t a b = .ok n) : n = 0 := by
  rw [compareAt_eq_ok_iff ba.here] at h
  split at h
  · exact h
  · refine h.eq_zero_of_twin twin fun x y hx hy => ?_
    exact turns (ha.child hx.1) (ha.child hy.1) (ba.child hx.1) (ba.child hy.1)

/-- A value may stand for its twin on the left. -/
theorem compareAt_of_twin (ha : μ.Contains a) (ba : Builtin a) (twin : Twin a b)
    (su : L.same.meet s u = true → a = c)
    (one : identicalAt (L.same.meet t u) b c = false) (h : compareAt L.same t u b c = .ok n) :
    compareAt L.same s u a c = .ok n := by
  have apart := Bool.or_eq_false_iff.mp one
  rw [compareAt, apart.1, if_neg Bool.false_ne_true, ← twin.compareSharing_left] at h
  cases here : L.same.meet s u with
  | false => rw [compareAt, here, if_neg Bool.false_ne_true, h]
  | true =>
    have level : compareAt L.same t u a c = .ok n := by
      rw [compareAt, apart.1, if_neg Bool.false_ne_true, h]
    rw [eq_zero_of_twin ha ba (su here ▸ .same) level, compareAt, here, if_pos rfl]

theorem chains (ha : μ.Contains a) (hb : μ.Contains b) (hc : μ.Contains c) (ba : Builtin a)
    (bb : Builtin b) (bc : Builtin c) (fa : NaNFree a) (fb : NaNFree b) (fc : NaNFree c)
    (st : L.same.meet s t = true → a = b) (tu : L.same.meet t u = true → b = c)
    (su : L.same.meet s u = true → a = c) : Chains L.same (s, a) (t, b) (u, c) := by
  induction a using children_induction generalizing b c s t u with
  | step a ih =>
    intro m n h h' hm hn
    by_cases first : identicalAt (L.same.meet s t) a b = true
    · have twin := twin_of_identicalAt ha.here hb.here st first
      have level : m = 0 := eq_zero_of_twin ha ba twin h
      cases last : identicalAt (L.same.meet t u) b c with
      | true =>
        have ends := identicalAt_trans ha.here hb.here st tu first last
        have level' : n = 0 :=
          eq_zero_of_twin hb bb (twin_of_identicalAt hb.here hc.here tu last) h'
        refine ⟨0, (compareAt_eq_ok_iff ba.here).mpr ?_, le_refl 0, fun _ => ⟨level, level'⟩⟩
        rw [if_pos ends]
      | false =>
        exact ⟨n, compareAt_of_twin ha ba twin su last h', hn, fun zero => ⟨level, zero⟩⟩
    by_cases last : identicalAt (L.same.meet t u) b c = true
    · -- the comparison of the first two is turned around, so that the twins are on the left
      have twin := twin_of_identicalAt hb.here hc.here tu last
      have apart : identicalAt (L.same.meet t s) b a = false :=
        Bool.eq_false_iff.mpr fun back => first (identicalAt_symm hb.here ha.here back)
      have back : compareAt L.same u s c a = .ok (-m) :=
        compareAt_of_twin hc bc twin.symm
          (fun here => (su (Layout.meet_symm here)).symm) apart (turns ha hb ba bb m h).1
      have ends := (turns hc ha bc ba (-m) back).1
      rw [neg_neg] at ends
      exact ⟨m, ends, hm, fun zero => ⟨zero, eq_zero_of_twin hb bb twin h'⟩⟩
    rw [compareAt_eq_ok_iff ba.here, if_neg first] at h
    rw [compareAt_eq_ok_iff bb.here, if_neg last] at h'
    have inside : ∀ x y z, a.HasChild x → b.HasChild y → c.HasChild z →
        Chains L.same x y z := by
      intro x y z hx hy hz
      have lx := hx.lies ha.here
      have ly := hy.lies hb.here
      have lz := hz.lies hc.here
      exact ih x.2 hx.1 (ha.child hx.1) (hb.child hy.1) (hc.child hz.1) (ba.child hx.1)
        (bb.child hy.1) (bc.child hz.1) (fa.child hx.1) (fb.child hy.1) (fc.child hz.1)
        (Layout.eq_of_meet lx ly) (Layout.eq_of_meet ly lz) (Layout.eq_of_meet lx lz)
    obtain ⟨k, ends, le, tie⟩ := h.trans inside fa.here fb.here fc.here h' hm hn
    by_cases one : identicalAt (L.same.meet s u) a c = true
    · have zero : k = 0 := ends.eq_zero_of_twin (twin_of_identicalAt ha.here hc.here su one)
        fun x y hx hy => turns (ha.child hx.1) (ha.child hy.1) (ba.child hx.1) (ba.child hy.1)
      refine ⟨k, (compareAt_eq_ok_iff ba.here).mpr ?_, le, tie⟩
      rw [if_pos one, zero]
    · refine ⟨k, (compareAt_eq_ok_iff ba.here).mpr ?_, le, tie⟩
      rw [if_neg one]
      exact ends

/-! ## Ties -/

/-- What is level is equivalent. -/
def Ties (same : Places) (x y : Placed) : Prop :=
  ∀ r, compareAt same x.1 y.1 x.2 y.2 = .ok r → (r = 0 ↔ Meets same x y)

theorem firstSign_eq_zero_iff {same : Places} {xs ys : List Placed}
    (ties : ∀ x ∈ xs, ∀ y ∈ ys, Ties same x y) (length : xs.length = ys.length)
    (h : firstSign same xs ys = .ok n) : n = 0 ↔ List.Forall₂ (Meets same) xs ys := by
  induction xs generalizing ys with
  | nil =>
    cases ys with
    | cons y ys => cases length
    | nil =>
      cases h
      exact iff_of_true rfl .nil
  | cons x xs ih =>
    cases ys with
    | nil => cases length
    | cons y ys =>
      rw [firstSign] at h
      rw [List.forall₂_cons]
      cases first : compareAt same x.1 y.1 x.2 y.2 with
      | error e => simp [first] at h
      | ok c =>
        have tie := ties x List.mem_cons_self y List.mem_cons_self c first
        simp only [first] at h
        by_cases level : c = 0
        · rw [if_pos level] at h
          rw [and_iff_right (tie.mp level)]
          refine ih (fun x' hx y' hy => ?_) (Nat.succ.inj length) h
          exact ties x' (List.mem_cons_of_mem _ hx) y' (List.mem_cons_of_mem _ hy)
        · rw [if_neg level] at h
          cases h
          exact iff_of_false level fun both => level (tie.mpr both.1)

/-- Leaves tie just if they are equivalent, keywords because they are interned. -/
theorem leafSign?_eq_zero_iff {same : Places} (ha : μ.holds a) (hb : μ.holds b)
    (na : a.isNaN = false) (nb : b.isNaN = false) (apart : identical a b = false)
    (h : leafSign? a b = some n) : n = 0 ↔ dispatchEquiv same a b = true := by
  cases a <;> cases b <;> cases h
  case num.num.refl x y => exact Number.compare_eq_zero_iff na nb
  all_goals rw [signOfOrdering_eq_zero_iff]
  case kw.kw.refl k l =>
    refine iff_of_false (fun same => ?_) fun tie => ?_
    · have cells := μ.interned ha hb same
      simp [identical, Keyword.same, cells] at apart
    · simp [dispatchEquiv, dispatch, structuralEquiv, leafEquiv, equals, apart] at tie
  case bool.bool.refl x y =>
    simp [dispatchEquiv, dispatch, structuralEquiv, leafEquiv, equals, identical]
  all_goals simp [dispatchEquiv, dispatch, structuralEquiv, leafEquiv, equals, apart]

/-- Vectors are equivalent if their elements meet one by one. -/
theorem dispatchEquiv_vectors {same : Places} {i j : Nat} {xs ys : List Value}
    {md md' : Option Metadata} :
    dispatchEquiv same (.seq .vector i xs md) (.seq .vector j ys md') = true ↔
      List.Forall₂ (Meets same) (placed (some (.sequence i)) 0 xs)
        (placed (some (.sequence j)) 0 ys) :=
  elementsEquiv_iff

theorem Compares.eq_zero_iff {same : Places} (ha : μ.holds a) (hb : μ.holds b)
    (ties : ∀ x y, a.HasChild x → b.HasChild y → Ties same x y) (ba : a.isObject = false)
    (na : a.isNaN = false) (nb : b.isNaN = false) (apart : identical a b = false)
    (h : Compares same a b n) : n = 0 ↔ dispatchEquiv same a b = true := by
  cases h with
  | below h =>
    refine iff_of_false (by decide) fun tie => h ?_
    cases b <;> first | rfl | cases tie
  | above h =>
    refine iff_of_false (by decide) fun tie => h ?_
    cases a with
    | nil => rfl
    | object i facets xs alikes => cases ba
    | _ =>
      simp [dispatchEquiv, dispatch, structuralEquiv, leafEquiv, equals, identical,
        elements?] at tie
  | leaf h => exact leafSign?_eq_zero_iff ha hb na nb apart h
  | shorter h =>
    refine iff_of_false (by decide) fun tie => ?_
    have length := (dispatchEquiv_vectors.mp tie).length_eq
    rw [length_placed, length_placed] at length
    omega
  | longer h =>
    refine iff_of_false (by decide) fun tie => ?_
    have length := (dispatchEquiv_vectors.mp tie).length_eq
    rw [length_placed, length_placed] at length
    omega
  | elements length h =>
    rw [dispatchEquiv_vectors]
    exact firstSign_eq_zero_iff
      (fun x hx y hy => ties x y (hasChild_of_elements rfl hx) (hasChild_of_elements rfl hy))
      (by rw [length_placed, length_placed, length]) h

theorem ties (ha : μ.Contains a) (hb : μ.Contains b) (ba : Builtin a) (bb : Builtin b)
    (fa : NaNFree a) (fb : NaNFree b) : Ties L.same (s, a) (t, b) := by
  induction a using children_induction generalizing b s t with
  | step a ih =>
    intro n h
    rw [compareAt_eq_ok_iff ba.here] at h
    rw [Meets, equivAt, equivSharing, ← Bool.or_assoc]
    cases one : identicalAt (L.same.meet s t) a b with
    | true =>
      rw [if_pos one] at h
      rw [← identicalAt, one]
      exact iff_of_true h rfl
    | false =>
      rw [one, if_neg Bool.false_ne_true] at h
      rw [← identicalAt, one, Bool.false_or]
      refine h.eq_zero_iff ha.here hb.here (fun x y hx hy => ?_) ba.here fa.here fb.here
        (Bool.or_eq_false_iff.mp one).2
      exact ih x.2 hx.1 (ha.child hx.1) (hb.child hy.1) (ba.child hx.1) (bb.child hy.1)
        (fa.child hx.1) (fb.child hy.1)

/-! ## The natural order -/

theorem compareAt_nil {same : Places} (apart : same.meet s t = false) (h : b ≠ .nil) :
    compareAt same s t .nil b = .ok (-1) := by
  rw [compareAt, apart]
  cases b <;> first | exact absurd rfl h | rfl

/-- The natural order of built-in values, whatever places they share, at any depth and as a
whole.  It fails in both directions or in none, and answers signs that turn around with the
operands.  Without NaNs it is transitive and ties on equivalent values alone.  Nil is at the
bottom. -/
theorem compare_partialOrder (ha : μ.Contains a) (hb : μ.Contains b) (hc : μ.Contains c)
    (ba : Builtin a) (bb : Builtin b) (bc : Builtin c) (st : L.same.meet s t = true → a = b)
    (tu : L.same.meet t u = true → b = c) (su : L.same.meet s u = true → a = c) :
    ((∃ e, compareAt L.same s t a b = .error e) ↔ ∃ e, compareAt L.same t s b a = .error e) ∧
      (∀ m, compareAt L.same s t a b = .ok m →
        compareAt L.same t s b a = .ok (-m) ∧ (m = -1 ∨ m = 0 ∨ m = 1)) ∧
      (NaNFree a → NaNFree b → NaNFree c → ∀ m n, compareAt L.same s t a b = .ok m →
        compareAt L.same t u b c = .ok n → m ≤ 0 → n ≤ 0 →
          ∃ k, compareAt L.same s u a c = .ok k ∧ k ≤ 0 ∧ (k = 0 → m = 0 ∧ n = 0)) ∧
      (NaNFree a → NaNFree b → ∀ m, compareAt L.same s t a b = .ok m →
        (m = 0 ↔ equivAt L.same s t a b = true)) ∧
      (a = .nil → b ≠ .nil →
        compareAt L.same s t a b = .ok (-1) ∧ compareAt L.same t s b a = .ok 1) := by
  have fails : ∀ {x y : Placed}, Turns L.same y x →
      (∃ e, compareAt L.same x.1 y.1 x.2 y.2 = .error e) →
        ∃ e, compareAt L.same y.1 x.1 y.2 x.2 = .error e := by
    rintro x y turn ⟨e, h⟩
    cases back : compareAt L.same y.1 x.1 y.2 x.2 with
    | error e' => exact ⟨e', rfl⟩
    | ok r =>
      rw [(turn r back).1] at h
      cases h
  have turn : Turns L.same (s, a) (t, b) := turns ha hb ba bb
  have back : Turns L.same (t, b) (s, a) := turns hb ha bb ba
  refine ⟨⟨fails back, fails turn⟩, turn,
    fun fa fb fc => chains ha hb hc ba bb bc fa fb fc st tu su, ties ha hb ba bb, ?_⟩
  rintro rfl other
  have apart : L.same.meet s t = false := Bool.eq_false_iff.mpr fun here => other (st here).symm
  have below := compareAt_nil apart other
  exact ⟨below, (turn (-1) below).1⟩

/-- Three versions of a vector.  They share the place of an empty list, which has no order
elsewhere. -/
theorem compare_partialOrder_vectors :
    let a : Value := .vector 0 [.list 9 [], .vector 1 [.int 1, .int 2]]
    let b : Value := .vector 2 [.list 9 [], .vector 3 [.int 1, .num (.big 6 5)]]
    let c : Value := .vector 4 [.list 9 [], .vector 5 [.int 1, .int 5]]
    let first : List Spot :=
      [.inside (.sequence 0) 0, .inside (.sequence 2) 0, .inside (.sequence 4) 0]
    let same : Places := .merging first
    (∃ e, compare a b = .error e) ∧ compareAt same none none b a = .ok 1 ∧
      equivAt same none none b c = true ∧
      ∃ k, compareAt same none none a c = .ok k ∧ k ≤ 0 ∧ k ≠ 0 := by
  intro a b c first same
  let μ : Memory := .ofList
    [a, .vector 1 [.int 1, .int 2], b, .vector 3 [.int 1, .num (.big 6 5)], .num (.big 6 5), c,
      .vector 5 [.int 1, .int 5], .list 9 []] (by decide) (by simp [a, b, c, vector, list])
  have held : μ.Contains a ∧ μ.Contains b ∧ μ.Contains c := by
    simp [Memory.Contains, everywhere_seq, everywhere_num, μ, Memory.ofList, Memory.Direct, a, b,
      c, vector, list, int]
  have lies : ∀ s ∈ first, μ.Lies (some s, .list 9 []) := by
    simp only [first, List.forall_mem_cons]
    refine ⟨?_, ?_, ?_, by simp⟩
    · rintro s ⟨⟩
      exact ⟨a, held.1.here, rfl⟩
    · rintro s ⟨⟩
      exact ⟨b, held.2.1.here, rfl⟩
    · rintro s ⟨⟩
      exact ⟨c, held.2.2.here, rfl⟩
  let L : Layout μ := .merging μ first (.list 9 []) lies fun table mem => by
    simp only [first, List.mem_cons, Spot.inside.injEq, List.not_mem_nil, or_false] at mem
    rcases mem with ⟨rfl, -⟩ | ⟨rfl, -⟩ | ⟨rfl, -⟩ <;> cases table
  have builtin : Builtin a ∧ Builtin b ∧ Builtin c := by
    simp [Builtin, everywhere_seq, everywhere_num, isObject, a, b, c, vector, list, int]
  have free : NaNFree a ∧ NaNFree b ∧ NaNFree c := by
    simp [NaNFree, everywhere_seq, everywhere_num, isNaN, Number.isNaN, a, b, c, vector, list, int]
  have ab : compareAt same none none a b = .ok (-1) := rfl
  have bc : compareAt same none none b c = .ok 0 := rfl
  have laws := compare_partialOrder (L := L) (s := none) (t := none) (u := none) held.1 held.2.1
    held.2.2 builtin.1 builtin.2.1 builtin.2.2 (by simp [Places.meet]) (by simp [Places.meet])
    (by simp [Places.meet])
  have laws' := compare_partialOrder (L := L) (s := none) (t := none) (u := none) held.2.1
    held.2.2 held.1 builtin.2.1 builtin.2.2 builtin.1 (by simp [Places.meet])
    (by simp [Places.meet]) (by simp [Places.meet])
  obtain ⟨k, ac, le, tie⟩ :=
    laws.2.2.1 free.1 free.2.1 free.2.2 _ _ ab bc (by decide) (by decide)
  refine ⟨⟨_, rfl⟩, (laws.2.1 _ ab).1, (laws'.2.2.2.1 free.2.1 free.2.2 _ bc).mp rfl, k, ac, le, ?_⟩
  intro zero
  exact absurd (tie zero).1 (by decide)

end Layout

end ValueCore.Value
