import Mathlib.Data.UInt
import ValueCore.Proofs.Matching
import ValueCore.Proofs.Number.Point
import ValueCore.Proofs.Value.Layout
/-!
# One level of equivalence

`Alike r a b` says what equivalence asks of two values at their first level, where `r` is
what it asks of their children, each in its spot.  Sequential values are alike if their elements
are related one by one.  Maps and sets are alike if their entries or elements match in some
order.  Nothing here depends on how a look-up finds its key.

Symmetry, transitivity and agreement of the value hashes pass from `r` to `Alike r`, so
they hold of equivalence as soon as equivalence is seen to be `Alike` itself.

A host object takes part if its facets make it a sequence like the built-in ones
(`Facets.Sequence`).
-/

namespace ValueCore

/-- An object is a sequence that gives its elements in order, hashes as a list of them and
is equivalent to what has equivalent elements. -/
structure Facets.Sequence (facets : Facets) : Prop where
  /-- It has no other value hash. -/
  hashEq? : facets.hashEq? = none
  /-- It matches element by element. -/
  collection? : ∃ n, facets.collection? = some ⟨true, true, n, .ordered, .elementwise⟩

namespace Value

/-- A value is built in, or is a host sequence. -/
def Plain : Value → Prop
  | .object _ facets _ _ => facets.Sequence
  | _ => True

/-- Two entries have related keys and related values. -/
def Entrywise {α : Type} (r : α → α → Prop) (e e' : α × α) : Prop :=
  r e.1 e'.1 ∧ r e.2 e'.2

/-- Two values are the same at the first level, up to a relation of their children. -/
inductive Alike (r : Placed → Placed → Prop) : Value → Value → Prop where
  | num {x y : Number} (h : x.equal y = true) : Alike r (.num x) (.num y)
  | char {c : Char} : Alike r (.char c) (.char c)
  | str {i j : Nat} {s : String} : Alike r (.str i s) (.str j s)
  | sym {s : Symbol} : Alike r (.sym s) (.sym s)
  | seq {a b : Value} {xs ys : List Value} (ha : a.elements? = some xs)
      (hb : b.elements? = some ys)
      (h : List.Forall₂ r (placed a.home? 0 xs) (placed b.home? 0 ys)) : Alike r a b
  | map {i j : Nat} {xs ys : List (Value × Value)} {m m' : Option Metadata}
      (h : Matching (Entrywise r) (placedEntries (some (.map i)) 0 xs)
        (placedEntries (some (.map j)) 0 ys)) : Alike r (.map i xs m) (.map j ys m')
  | set {i j : Nat} {xs ys : List Value} {m m' : Option Metadata}
      (h : Matching r (placed (some (.set i)) 0 xs) (placed (some (.set j)) 0 ys)) :
      Alike r (.set i xs m) (.set j ys m')

/-! ## The value hash of what is alike -/

theorem combineAll_eq_foldl (seed : UInt32) (xs : List Value) :
    combineAll seed xs = (xs.map hashEq).foldl combineHash seed := by
  induction xs generalizing seed with
  | nil => rfl
  | cons x xs ih => rw [combineAll, ih, List.map_cons, List.foldl_cons]

theorem hashEqSum_eq_sum (xs : List Value) : hashEqSum xs = (xs.map hashEq).sum := by
  induction xs with
  | nil => rfl
  | cons x xs ih => rw [hashEqSum, ih, List.map_cons, List.sum_cons]

theorem entryHashSum_eq_sum (es : List (Value × Value)) :
    entryHashSum es = (es.map entryHashEq).sum := by
  induction es with
  | nil => rfl
  | cons e es ih => rw [entryHashSum, ih, List.map_cons, List.sum_cons]

/-- Sequences of all kinds hash as their elements do in order. -/
theorem hashEq_of_elements {a : Value} {xs : List Value} (plain : a.Plain)
    (h : a.elements? = some xs) : a.hashEq = hashOrdered xs := by
  cases a with
  | seq f i items m =>
    cases h
    rfl
  | object i facets items alikes =>
    obtain ⟨none, n, coll⟩ := plain
    simp only [elements?, coll, Bool.and_true, if_true, Option.some.injEq] at h
    simp only [hashEq, none, coll, hashOrdered, h]
  | _ => cases h

namespace Alike

variable {r s t : Placed → Placed → Prop} {a b c : Value}

/-- What follows for the children follows for what is alike. -/
theorem of_hasChild (h : Alike r a b)
    (imp : ∀ x y, a.HasChild x → b.HasChild y → r x y → s x y) : Alike s a b := by
  cases h with
  | num h => exact .num h
  | char => exact .char
  | str => exact .str
  | sym => exact .sym
  | seq ha hb h =>
    exact .seq ha hb (forall₂_of_mem h fun x hx y hy =>
      imp x y (hasChild_of_elements ha hx) (hasChild_of_elements hb hy))
  | map h =>
    refine .map (h.of_mem fun e he e' he' both => ⟨?_, ?_⟩)
    · exact imp _ _ (hasChild_of_entries he).1 (hasChild_of_entries he').1 both.1
    · exact imp _ _ (hasChild_of_entries he).2 (hasChild_of_entries he').2 both.2
  | set h =>
    exact .set (h.of_mem fun x hx y hy =>
      imp x y (hasChild_of_members hx) (hasChild_of_members hy))

section Values

variable {q : Value → Value → Prop} {i j : Nat} {m m' : Option Metadata}

/-- Elements that are related as values are so wherever they lie. -/
theorem of_elements {xs ys : List Value} (ha : a.elements? = some xs) (hb : b.elements? = some ys)
    (h : List.Forall₂ q xs ys) : Alike (fun x y => q x.2 y.2) a b := by
  refine .seq ha hb (List.forall₂_map_left_iff.mp (List.forall₂_map_right_iff.mp ?_))
  rwa [map_snd_placed, map_snd_placed]

theorem of_entries {xs ys : List (Value × Value)} (h : Matching (Entrywise q) xs ys) :
    Alike (fun x y => q x.2 y.2) (.map i xs m) (.map j ys m') := by
  rw [← @map_values_placedEntries (some (.map i)) 0 xs,
    ← @map_values_placedEntries (some (.map j)) 0 ys] at h
  exact .map h.of_map

theorem of_members {xs ys : List Value} (h : Matching q xs ys) :
    Alike (fun x y => q x.2 y.2) (.set i xs m) (.set j ys m') := by
  rw [← @map_snd_placed (some (.set i)) 0 xs, ← @map_snd_placed (some (.set j)) 0 ys] at h
  exact .set h.of_map

end Values

theorem symm (turn : ∀ x y, r x y → s y x) (h : Alike r a b) : Alike s b a := by
  cases h with
  | num h => exact .num (Number.equal_symm h)
  | char => exact .char
  | str => exact .str
  | sym => exact .sym
  | seq ha hb h => exact .seq hb ha (forall₂_symm turn h)
  | map h => exact .map (h.symm fun _ _ both => ⟨turn _ _ both.1, turn _ _ both.2⟩)
  | set h => exact .set (h.symm turn)

theorem trans (comp : ∀ x y z, r x y → s y z → t x z) (h : Alike r a b) (h' : Alike s b c) :
    Alike t a c := by
  cases h with
  | num h =>
    cases h' with
    | num h' => exact .num (Number.equal_trans h h')
    | seq hb => cases hb
  | char =>
    cases h' with
    | char => exact .char
    | seq hb => cases hb
  | str =>
    cases h' with
    | str => exact .str
    | seq hb => cases hb
  | sym =>
    cases h' with
    | sym => exact .sym
    | seq hb => cases hb
  | map h =>
    cases h' with
    | map h' =>
      exact .map (h.trans (fun _ _ _ k k' => ⟨comp _ _ _ k.1 k'.1, comp _ _ _ k.2 k'.2⟩) h')
    | seq hb => cases hb
  | set h =>
    cases h' with
    | set h' => exact .set (h.trans comp h')
    | seq hb => cases hb
  | seq ha hb h =>
    cases h' with
    | seq hb' hc h' =>
      rw [hb, Option.some.injEq] at hb'
      subst hb'
      exact .seq ha hc (forall₂_trans comp h h')
    | num => cases hb
    | char => cases hb
    | str => cases hb
    | sym => cases hb
    | map => cases hb
    | set => cases hb

/-- If the children of alike values hash alike, so do the values. -/
theorem hashEq_eq (agree : ∀ x y, r x y → x.2.hashEq = y.2.hashEq) (pa : a.Plain)
    (pb : b.Plain) (h : Alike r a b) : a.hashEq = b.hashEq := by
  cases h with
  | num h => exact Number.hashEq_eq_of_equal h
  | char => rfl
  | str => rfl
  | sym => rfl
  | @seq _ _ xs ys ha hb h =>
    have hashes := map_eq_of_forall₂ agree h
    have length := h.length_eq
    rw [map_placed, map_placed] at hashes
    rw [length_placed, length_placed] at length
    rw [hashEq_of_elements pa ha, hashEq_of_elements pb hb, hashOrdered, hashOrdered,
      combineAll_eq_foldl, combineAll_eq_foldl, hashes, length]
  | @map i j xs ys m m' h =>
    have entries : ∀ e e', Entrywise r e e' →
        entryHashEq (e.1.2, e.2.2) = entryHashEq (e'.1.2, e'.2.2) := by
      rintro e e' ⟨keys, vals⟩
      simp only [entryHashEq, agree _ _ keys, agree _ _ vals]
    have sums := h.sum_eq entries
    have length := h.length_eq
    rw [map_placedEntries, map_placedEntries] at sums
    rw [length_placedEntries, length_placedEntries] at length
    rw [hashEq, hashEq, entryHashSum_eq_sum, entryHashSum_eq_sum, sums, length]
  | @set i j xs ys m m' h =>
    have sums := h.sum_eq agree
    have length := h.length_eq
    rw [map_placed, map_placed] at sums
    rw [length_placed, length_placed] at length
    rw [hashEq, hashEq, hashEqSum_eq_sum, hashEqSum_eq_sum, sums, length]

end Alike

end Value

end ValueCore
