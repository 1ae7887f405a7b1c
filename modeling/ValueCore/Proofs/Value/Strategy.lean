import ValueCore.Proofs.Value.Content
/-!
# Strategies chosen once

A strategy is chosen for a left side and then asked about many right sides.  It leaves out
two things that equivalence does: it does not ask for identity first, and it looks at the
right side only as far as its own kind of left side needs.

Neither makes a difference but for a NaN, which equivalence takes for equivalent to itself
in its own place, and its strategy does not.  That the second thing makes none is a matter of
kinds (`answer_equivPred`).  For the first, a value must be equivalent to itself by kind and
structure alone.  Of a leaf other than a NaN this is plain.  A collection has its elements in the
same places as itself, so they meet, whatever they hold (`dispatchEquiv_self`).
-/

namespace ValueCore.Value

variable {μ : Memory} {L : Layout μ} {a b : Value} {s t : Option Spot}

/-! ## A collection in its own places -/

section Level

variable {P : Value → Prop}

/-- What lies in a spot meets itself. -/
theorem linked_self {x : Placed} {here : Spot} (la : Level L P a) (hx : a.HasChild x)
    (spot : x.1 = some here) : Linked L P x x := by
  refine linked_of_meets la la hx hx (meets_of_meet ?_)
  rw [spot]
  exact L.refl here

/-- A collection is alike itself. -/
theorem alike_self {home : Allocation} (la : Level L P a) (h : a.home? = some home) :
    Alike (Linked L P) a a := by
  cases a with
  | seq f i xs m =>
    refine .seq rfl rfl (List.forall₂_same.mpr fun x mem => ?_)
    obtain ⟨k, spot, -⟩ := mem_placed mem
    exact linked_self la (hasChild_of_elements rfl mem) spot
  | map i es m =>
    refine .map ⟨_, List.forall₂_same.mpr fun e mem => ?_, .refl _⟩
    obtain ⟨left, right⟩ := hasChild_of_entries (m := m) mem
    obtain ⟨k, d, rfl, -⟩ := mem_placedEntries mem
    exact ⟨linked_self la left rfl, linked_self la right rfl⟩
  | set i xs m =>
    refine .set ⟨_, List.forall₂_same.mpr fun x mem => ?_, .refl _⟩
    obtain ⟨k, spot, -⟩ := mem_placed mem
    exact linked_self la (hasChild_of_members mem) spot
  | _ => cases h

end Level

theorem leafEquiv_eq_equals (hb : b.isObject = false) : leafEquiv a b = equals a b := by
  cases b with
  | object => cases hb
  | _ => rfl

/-- Every value but a NaN is equivalent to itself without a question for identity. -/
theorem dispatchEquiv_self (ha : FormedIn L a) (ba : Builtin a) (number : a.isNaN = false) :
    dispatchEquiv L.same a a = true := by
  have content : equals a a = true := equals_self ha.contains ba
  have leaf : leafEquiv a a = true := by rw [leafEquiv_eq_equals ba.here, content]
  have collection : ∀ home, a.home? = some home → dispatchEquiv L.same a a = true :=
    fun _ here => dispatchEquiv_of_alike (lawful_formedIn L) ha.level ha.level
      (alike_self ha.level here)
  cases a with
  | nil => rfl
  | num x => exact Number.equal_self number
  | seq => exact collection _ rfl
  | map => exact collection _ rfl
  | set => exact collection _ rfl
  | object => cases ba.here
  | bool x => exact leaf
  | char c => exact leaf
  | str i s => exact leaf
  | sym s => exact leaf
  | kw k => exact leaf
  | fn f => exact leaf

/-! ## Answers of strategies -/

/-- The strategy for a value goes by kind and structure as equivalence does. -/
theorem answer_equivPred (same : Places) (ba : a.isObject = false) (bb : b.isObject = false) :
    (equivPred a).answer same a b = dispatchEquiv same a b := by
  cases a with
  | nil => rfl
  | num x =>
    -- a number has the content of no other kind of value
    cases b with
    | object => cases bb
    | _ => rfl
  | str i s => exact (leafEquiv_eq_equals bb).symm
  | sym s => exact (leafEquiv_eq_equals bb).symm
  | kw k => exact (leafEquiv_eq_equals bb).symm
  | object => cases ba
  | _ => rfl

/-- A strategy finds that a value is equivalent to its twins. -/
theorem answer_of_twin (ha : FormedIn L a) (ba : Builtin a) (bb : Builtin b) (h : Twin a b)
    (number : a.isNaN = false) : (equivPred a).answer L.same a b = true := by
  rw [answer_equivPred L.same ba.here bb.here, ← h.dispatchEquiv_right]
  exact dispatchEquiv_self ha ba number

/-- A NaN is in no allocation. -/
theorem identical_of_isNaN (nan : a.isNaN = true) (b : Value) : identical a b = false := by
  cases a with
  | num x =>
    cases x with
    | float x =>
      cases b with
      | num y => cases y <;> rfl
      | _ => rfl
    | _ => cases nan
  | _ => cases nan

theorem dispatchEquiv_of_isNaN (same : Places) (nan : a.isNaN = true)
    (bb : b.isObject = false) : dispatchEquiv same a b = false := by
  cases a with
  | num x =>
    cases b with
    | num y =>
      refine Bool.eq_false_iff.mpr fun equal => ?_
      obtain ⟨v, point, -⟩ := Number.equal_iff.mp equal
      rw [Number.point?_eq_none_iff.mpr nan] at point
      cases point
    | object => cases bb
    | _ => rfl
  | _ => cases nan

/-- The strategy chosen for a built-in value answers as equivalence does, whatever places the
two values share.  Only for a NaN it always answers no, where equivalence asks whether the right
side is in the same place. -/
theorem equivPred_agrees (ha : FormedIn L a) (hb : FormedIn L b) (ba : Builtin a)
    (bb : Builtin b) (place : L.same.meet s t = true → a = b) :
    (a.isNaN = false → (equivPred a).answer L.same a b = equivAt L.same s t a b) ∧
      (a.isNaN = true → (equivPred a).answer L.same a b = false ∧
        equivAt L.same s t a b = L.same.meet s t) := by
  have split : equivAt L.same s t a b =
      (identicalAt (L.same.meet s t) a b || dispatchEquiv L.same a b) :=
    (identicalAt_or_dispatch L.same s t a b).symm
  constructor
  · intro number
    rw [split]
    cases one : identicalAt (L.same.meet s t) a b with
    | true =>
      have twin := twin_of_identicalAt ha.level.held hb.level.held place one
      rw [answer_of_twin ha ba bb twin number, Bool.true_or]
    | false => rw [answer_equivPred L.same ba.here bb.here, Bool.false_or]
  · intro nan
    have never := dispatchEquiv_of_isNaN L.same nan bb.here
    refine ⟨(answer_equivPred L.same ba.here bb.here).trans never, ?_⟩
    rw [split, identicalAt, identical_of_isNaN nan, never, Bool.or_false, Bool.or_false]

/-- A map with a NaN for a key and another one in a vector under it, against a clone of
itself, and a NaN against itself in its own place and against a clone in another. -/
theorem equivPred_agrees_nested :
    let nan : Value := .float ⟨0x7ff8000000000000⟩
    let a : Value := .map 0 [(nan, .vector 1 [nan]), (.int 1, nan)] none
    let here : Option Spot := some (.named 0)
    let there : Option Spot := some (.named 1)
    (equivPred a).answer Places.own a a = equivAt Places.own here there a a ∧
      equivAt Places.own here there a a = true ∧
      ((equivPred nan).answer Places.own nan nan = false ∧
        equivAt Places.own here here nan nan = true) ∧
      (equivPred nan).answer Places.own nan nan = false ∧
        equivAt Places.own here there nan nan = false := by
  intro nan a here there
  let μ : Memory := .ofList [a, .vector 1 [nan]] (by decide) (by simp [a, nan, vector])
  have distinct : a.Distinct := by decide +kernel
  have ha : Formed μ a := by
    refine formed_map.mpr ⟨⟨.inr (by simp [a]), distinct⟩, ?_⟩
    simp [int, float, nan, vector, formed_num, formed_seq, μ, Memory.ofList, Memory.Direct]
  have hn : Formed μ nan := formed_num.mpr (.inl trivial)
  have ba : Builtin a := by
    simp [Builtin, everywhere_map, everywhere_seq, everywhere_num, isObject, a, nan, vector, int,
      float]
  have bn : Builtin nan := everywhere_num.mpr rfl
  have nested := equivPred_agrees (L := .own μ) (s := here) (t := there) ha ha ba ba fun _ => rfl
  have itself := equivPred_agrees (L := .own μ) (s := here) (t := here) hn hn bn bn fun _ => rfl
  have clone := equivPred_agrees (L := .own μ) (s := here) (t := there) hn hn bn bn fun _ => rfl
  exact ⟨nested.1 rfl, by decide +kernel, itself.2 rfl, clone.2 rfl⟩

end ValueCore.Value
