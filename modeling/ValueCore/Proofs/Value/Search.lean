import Mathlib.Data.List.Find
import ValueCore.Proofs.Matching
import ValueCore.Proofs.Value.Layout
/-!
# What the loops of equivalence find

Equivalence of collections runs through their children, each in its spot.  Two children *meet*
if they are equivalent as they lie, which they also are if they lie in one place.  Here each loop
is stated by the children that meet.

* `elementsEquiv` asks for elements that meet one by one.
* `membersEquiv` asks that each element meets one of the same value hash.
* `entriesEquiv` asks the same of keys, and then that the values under the first key that is
  found meet.

So a loop answers alike under two choices of places under which the same children meet
(`structuralEquiv_congr`).
-/

namespace ValueCore.Value

/-- Two values are equivalent as they lie. -/
def Meets (same : Places) (x y : Placed) : Prop := equivAt same x.1 y.1 x.2 y.2 = true

theorem meets_of_equivSharing {same : Places} {x y : Placed}
    (h : equivSharing same x.2 y.2 = true) : Meets same x y := by
  rw [Meets, equivAt, h, Bool.or_true]

theorem meets_of_meet {same : Places} {x y : Placed} (h : same.meet x.1 y.1 = true) :
    Meets same x y := by
  rw [Meets, equivAt, h, Bool.true_or]

/-- Children are compared as whole values are. -/
theorem identicalAt_or_dispatch (same : Places) (s t : Option Spot) (x y : Value) :
    (identicalAt (same.meet s t) x y || dispatch (structuralEquiv same x y) x y) =
      equivAt same s t x y := by
  rw [identicalAt, equivAt, equivSharing, dispatchEquiv, Bool.or_assoc]

/-! ## The loops -/

section Loops

variable {same : Places} {home : Option Allocation} {i : Nat}

theorem elementsEquiv_iff {xs : List Value} {ys : List Placed} :
    elementsEquiv same home i xs ys = true ↔
      List.Forall₂ (Meets same) (placed home i xs) ys := by
  induction xs generalizing i ys with
  | nil => cases ys <;> simp [elementsEquiv, placed]
  | cons x xs ih =>
    cases ys with
    | nil => simp [elementsEquiv, placed]
    | cons y ys =>
      rw [elementsEquiv, identicalAt_or_dispatch, Bool.and_eq_true, ih, placed,
        List.forall₂_cons]
      exact Iff.rfl

theorem membersEquiv_iff {xs : List Value} {ys : List Placed} :
    membersEquiv same home i xs ys = true ↔
      ∀ x ∈ placed home i xs, ∃ y ∈ ys, x.2.hashEq = y.2.hashEq ∧ Meets same x y := by
  induction xs generalizing i with
  | nil => simp [membersEquiv, placed]
  | cons x xs ih =>
    simp only [membersEquiv, identicalAt_or_dispatch, Bool.and_eq_true, List.any_eq_true,
      beq_iff_eq, ih, placed, List.forall_mem_cons]
    exact Iff.rfl

/-- The look-up of a key, and what is then asked of the values. -/
def FindsEntry (same : Places) (ys : List (Placed × Placed)) (e : Placed × Placed) : Prop :=
  ∃ y, (ys.find? fun y => e.1.2.hashEq == y.1.2.hashEq &&
    equivAt same e.1.1 y.1.1 e.1.2 y.1.2) = some y ∧ Meets same e.2 y.2

theorem entriesEquiv_iff {xs : List (Value × Value)} {ys : List (Placed × Placed)} :
    entriesEquiv same home i xs ys = true ↔
      ∀ e ∈ placedEntries home i xs, FindsEntry same ys e := by
  induction xs generalizing i with
  | nil => simp [entriesEquiv, placedEntries]
  | cons e xs ih =>
    obtain ⟨k, v⟩ := e
    rw [entriesEquiv, Bool.and_eq_true, ih, placedEntries, List.forall_mem_cons]
    refine and_congr_left' ?_
    simp only [entryEquiv, identicalAt_or_dispatch, FindsEntry]
    split
    · next y found => simp [found, Meets]
    · next none => simp [none]

/-- An entry is matched by one whose key and value it meets. -/
theorem FindsEntry.exists_meets {ys : List (Placed × Placed)} {e : Placed × Placed}
    (h : FindsEntry same ys e) : ∃ y ∈ ys, Meets same e.1 y.1 ∧ Meets same e.2 y.2 := by
  obtain ⟨y, found, val⟩ := h
  have key := List.find?_some found
  rw [Bool.and_eq_true] at key
  exact ⟨y, List.mem_of_find?_eq_some found, key.2, val⟩

/-- The converse needs that no other key is met, since the first one decides. -/
theorem findsEntry_of_unique {ys : List (Placed × Placed)} {e y : Placed × Placed}
    (mem : y ∈ ys) (hash : e.1.2.hashEq = y.1.2.hashEq) (key : Meets same e.1 y.1)
    (val : Meets same e.2 y.2) (unique : ∀ y' ∈ ys, Meets same e.1 y'.1 → y' = y) :
    FindsEntry same ys e := by
  cases found : ys.find? fun y => e.1.2.hashEq == y.1.2.hashEq &&
      equivAt same e.1.1 y.1.1 e.1.2 y.1.2 with
  | none =>
    have missed := List.find?_eq_none.mp found y mem
    rw [Bool.and_eq_true, beq_iff_eq] at missed
    exact absurd ⟨hash, key⟩ missed
  | some y' =>
    have key' := List.find?_some found
    rw [Bool.and_eq_true] at key'
    have here := unique y' (List.mem_of_find?_eq_some found) key'.2
    exact ⟨y', found, by rwa [here]⟩

end Loops

/-! ## Other places -/

section Congr

variable {same same' : Places} {a b : Value} {home : Option Allocation} {i : Nat}

/-- Two children meet under both of two choices of places or under none. -/
def MeetAlike (same same' : Places) (x y : Placed) : Prop :=
  equivAt same x.1 y.1 x.2 y.2 = equivAt same' x.1 y.1 x.2 y.2

theorem elementsEquiv_congr {xs : List Value} {ys : List Placed}
    (h : ∀ x ∈ placed home i xs, ∀ y ∈ ys, MeetAlike same same' x y) :
    elementsEquiv same home i xs ys = elementsEquiv same' home i xs ys := by
  rw [Bool.eq_iff_iff, elementsEquiv_iff, elementsEquiv_iff]
  constructor
  · exact fun all => forall₂_of_mem all fun x hx y hy meets => (h x hx y hy).symm.trans meets
  · exact fun all => forall₂_of_mem all fun x hx y hy meets => (h x hx y hy).trans meets

theorem membersEquiv_congr {xs : List Value} {ys : List Placed}
    (h : ∀ x ∈ placed home i xs, ∀ y ∈ ys, MeetAlike same same' x y) :
    membersEquiv same home i xs ys = membersEquiv same' home i xs ys := by
  rw [Bool.eq_iff_iff, membersEquiv_iff, membersEquiv_iff]
  refine forall₂_congr fun x hx => exists_congr fun y => and_congr_right fun hy => ?_
  rw [Meets, Meets, h x hx y hy]

theorem entriesEquiv_congr {xs : List (Value × Value)} {ys : List (Placed × Placed)}
    (keys : ∀ e ∈ placedEntries home i xs, ∀ y ∈ ys, MeetAlike same same' e.1 y.1)
    (vals : ∀ e ∈ placedEntries home i xs, ∀ y ∈ ys, MeetAlike same same' e.2 y.2) :
    entriesEquiv same home i xs ys = entriesEquiv same' home i xs ys := by
  rw [Bool.eq_iff_iff, entriesEquiv_iff, entriesEquiv_iff]
  refine forall₂_congr fun e he => exists_congr fun y => ?_
  have find := List.find?_congr (l := ys)
    fun y hy => congrArg (e.1.2.hashEq == y.1.2.hashEq && ·) (keys e he y hy)
  rw [find]
  refine and_congr_right fun found => ?_
  rw [Meets, Meets, vals e he y (List.mem_of_find?_eq_some found)]

/-- Structure is compared alike under two choices of places if the children are. -/
theorem structuralEquiv_congr
    (h : ∀ x y, a.HasChild x → b.HasChild y → MeetAlike same same' x y) :
    structuralEquiv same a b = structuralEquiv same' a b := by
  cases a with
  | seq f i xs m =>
    rw [structuralEquiv, structuralEquiv]
    cases elements : b.elements? with
    | none => rfl
    | some ys =>
      exact elementsEquiv_congr fun x hx y hy =>
        h x y (hasChild_of_elements rfl hx) (hasChild_of_elements elements hy)
  | map i xs m =>
    cases b with
    | map j ys m' =>
      rw [structuralEquiv, structuralEquiv, entriesEquiv_congr]
      · exact fun e he y hy => h _ _ (hasChild_of_entries he).1 (hasChild_of_entries hy).1
      · exact fun e he y hy => h _ _ (hasChild_of_entries he).2 (hasChild_of_entries hy).2
    | _ => rfl
  | set i xs m =>
    cases b with
    | set j ys m' =>
      rw [structuralEquiv, structuralEquiv, membersEquiv_congr]
      exact fun x hx y hy => h x y (hasChild_of_members hx) (hasChild_of_members hy)
    | _ => rfl
  | object i facets xs alikes =>
    simp only [structuralEquiv]
    have items : ∀ ys, b.elements? = some ys → elementsEquiv same none 0 xs (placed b.home? 0 ys) =
        elementsEquiv same' none 0 xs (placed b.home? 0 ys) := by
      intro ys elements
      refine elementsEquiv_congr fun x hx y hy => h x y ?_ (hasChild_of_elements elements hy)
      obtain ⟨k, here, found⟩ := mem_placed hx
      exact ⟨List.mem_of_getElem? found, fun s hs => by rw [here] at hs; cases hs⟩
    cases elements : b.elements? with
    | none => rfl
    | some ys => simp only [items ys elements]
  | _ => rfl

end Congr

end ValueCore.Value
