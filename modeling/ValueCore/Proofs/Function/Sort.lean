import Mathlib.Data.List.Basic
import ValueCore.Function.Sort
import ValueCore.Proofs.Function.Outcome
/-!
# Sorting with a function

What a sort comes to depends on the answers of the comparisons, and those may depend on the
state.  So all is stated for a set of states `I` that the comparisons do not leave, such as
all states that they can lead to.

`Settles I compare a b p q` says that from these states the comparison of `a` and `b`
succeeds, and that `p` holds if it takes `a` and `q` if it takes `b`.  A merge sort only
compares items with later ones.  If each item settles a transitive relation with every later
one, in one direction or the other, the sort gives the items in an order that keeps the
relation (`mergeSort_yields`).

This is used twice.  For the relation that always holds, it says that the sort succeeds with a
permutation of the items, whatever the answers are.  For answers that are a total preorder,
the relation is the preorder with ties broken by position, and the sort is stable
(`Function.sort_stable`).
-/

namespace ValueCore

variable {σ α : Type}

/-! ## Merging -/

/-- The comparison of two values succeeds and settles which of two relations holds. -/
def Settles (I : σ → Prop) (compare : Comparison σ) (a b : Value) (p q : Prop) : Prop :=
  ∀ s, I s → (compare a b).Yields s fun c s' => I s' ∧ if c ≤ 0 then p else q

/-- A list has the values of some items in an order that keeps a relation. -/
def Arranged (val : α → Value) (R : α → α → Prop) (items : List α) (out : List Value) : Prop :=
  ∃ order : List α, order.Perm items ∧ order.map val = out ∧ order.Pairwise R

section Merge

variable {I : σ → Prop} {compare : Comparison σ} {val : α → Value} {R : α → α → Prop}

theorem Arranged.cons {x : α} {items items' : List α} {out : List Value}
    (h : Arranged val R items out) (first : ∀ y ∈ items, R x y) (perm : (x :: items).Perm items') :
    Arranged val R items' (val x :: out) := by
  obtain ⟨order, same, rfl, sorted⟩ := h
  refine ⟨x :: order, (same.cons x).trans perm, rfl, List.pairwise_cons.mpr ⟨?_, sorted⟩⟩
  intro y mem
  exact first y (same.subset mem)

/-- The front of the run that a merge takes from is related to all that is left in both. -/
theorem related_of_mem (trans : ∀ x y z, R x y → R y z → R x z) {x y z : α} {own other : List α}
    (choice : R x z) (firstOwn : ∀ y ∈ own, R x y) (firstOther : ∀ y ∈ other, R z y)
    (mem : y ∈ own ∨ y ∈ z :: other) : R x y := by
  rcases mem with there | there
  · exact firstOwn y there
  · rcases List.mem_cons.mp there with rfl | there
    · exact choice
    · exact trans _ _ _ choice (firstOther y there)

/-- If each item of the left run settles the relation with each of the right run, a merge of
two runs that keep it keeps it. -/
theorem merge_yields (trans : ∀ x y z, R x y → R y z → R x z) {left right : List α}
    (settles : ∀ l ∈ left, ∀ r ∈ right, Settles I compare (val l) (val r) (R l r) (R r l))
    (hl : left.Pairwise R) (hr : right.Pairwise R) {s : σ} (hs : I s) :
    (merge compare (left.map val) (right.map val)).Yields s fun out s' =>
      I s' ∧ Arranged val R (left ++ right) out := by
  induction left generalizing right s with
  | nil =>
    rw [List.map_nil, merge, Eval.yields_pure]
    exact ⟨hs, right, .refl right, rfl, hr⟩
  | cons l left takeLeft =>
    induction right generalizing s with
    | nil =>
      rw [List.map_nil, List.map_cons, merge, Eval.yields_pure, List.append_nil]
      · exact ⟨hs, l :: left, .refl _, rfl, hl⟩
      · simp
    | cons r right takeRight =>
      obtain ⟨firstLeft, sortedLeft⟩ := List.pairwise_cons.mp hl
      obtain ⟨firstRight, sortedRight⟩ := List.pairwise_cons.mp hr
      rw [List.map_cons, List.map_cons, merge, Eval.yields_bind]
      refine (settles l List.mem_cons_self r List.mem_cons_self s hs).mono ?_
      rintro c s₁ ⟨hs₁, choice⟩
      by_cases take : c ≤ 0
      · rw [if_pos take] at choice
        rw [if_pos take, Eval.yields_bind, ← List.map_cons]
        refine (takeLeft (fun x hx y hy => settles x (List.mem_cons_of_mem l hx) y hy) sortedLeft
          hr hs₁).mono ?_
        rintro out s₂ ⟨hs₂, rest⟩
        rw [Eval.yields_pure]
        refine ⟨hs₂, rest.cons (fun y mem => ?_) (.refl _)⟩
        exact related_of_mem trans choice firstLeft firstRight (List.mem_append.mp mem)
      · rw [if_neg take] at choice
        rw [if_neg take, Eval.yields_bind, ← List.map_cons]
        refine (takeRight (fun x hx y hy => settles x hx y (List.mem_cons_of_mem r hy)) sortedRight
          hs₁).mono ?_
        rintro out s₂ ⟨hs₂, rest⟩
        rw [Eval.yields_pure]
        refine ⟨hs₂, rest.cons (fun y mem => ?_) List.perm_middle.symm⟩
        exact related_of_mem trans choice firstRight firstLeft (List.mem_append.mp mem).symm

/-- If each item settles a transitive relation with every later one, the sort gives the items
in an order that keeps it. -/
theorem mergeSort_yields (trans : ∀ x y z, R x y → R y z → R x z) {items : List α}
    (settles : items.Pairwise fun x y => Settles I compare (val x) (val y) (R x y) (R y x))
    {s : σ} (hs : I s) :
    (mergeSort compare (items.map val)).Yields s fun out s' =>
      I s' ∧ Arranged val R items out := by
  induction size : items.length using Nat.strongRecOn generalizing items s with
  | ind n ih =>
    subst size
    rw [mergeSort, List.length_map]
    split
    · next short =>
      rw [Eval.yields_pure]
      refine ⟨hs, items, .refl items, rfl, ?_⟩
      match items, short with
      | [], _ => exact .nil
      | [x], _ => exact List.pairwise_singleton R x
    · next long =>
      have proper : 0 < items.length / 2 ∧ items.length / 2 < items.length := by omega
      dsimp only
      generalize items.length / 2 = half at proper ⊢
      have whole := List.take_append_drop half items
      have parts := settles
      rw [← whole, List.pairwise_append] at parts
      obtain ⟨first, second, across⟩ := parts
      rw [← List.map_take, ← List.map_drop, Eval.yields_bind]
      refine (ih _ (by simp only [List.length_take]; omega) first hs rfl).mono ?_
      rintro _ s₁ ⟨hs₁, left, permLeft, rfl, sortedLeft⟩
      rw [Eval.yields_bind]
      refine (ih _ (by simp only [List.length_drop]; omega) second hs₁ rfl).mono ?_
      rintro _ s₂ ⟨hs₂, right, permRight, rfl, sortedRight⟩
      refine (merge_yields trans (fun l hl r hr => across l (permLeft.subset hl) r
        (permRight.subset hr)) sortedLeft sortedRight hs₂).mono ?_
      rintro out s₃ ⟨hs₃, order, perm, rfl, sorted⟩
      refine ⟨hs₃, order, ?_, rfl, sorted⟩
      rw [← whole]
      exact perm.trans (permLeft.append permRight)

end Merge

/-! ## Stable order -/

/-- A list has some items in an order in which those that are tied stand as they did.  Each
comes with the position that it had. -/
def KeepsTies (le : Value → Value → Prop) (items out : List Value) : Prop :=
  ∃ placed : List (Value × Nat), placed.Perm items.zipIdx ∧ placed.map Prod.fst = out ∧
    placed.Pairwise fun x y => le x.1 y.1 → le y.1 x.1 → x.2 < y.2

/-- On some items, a relation is a total preorder. -/
structure TotalPreorderOn (le : Value → Value → Prop) (items : List Value) : Prop where
  total : ∀ a ∈ items, ∀ b ∈ items, le a b ∨ le b a
  trans : ∀ a ∈ items, ∀ b ∈ items, ∀ c ∈ items, le a b → le b c → le a c

/-- The preorder with ties broken by position. -/
def Precedes (le : Value → Value → Prop) (x y : Value × Nat) : Prop :=
  le x.1 y.1 ∧ (le y.1 x.1 → x.2 < y.2)

section Precedes

variable {le : Value → Value → Prop} {items : List Value} {x y z : Value × Nat}

theorem Precedes.trans (preorder : TotalPreorderOn le items) (hx : x.1 ∈ items)
    (hy : y.1 ∈ items) (hz : z.1 ∈ items) (h : Precedes le x y) (h' : Precedes le y z) :
    Precedes le x z := by
  refine ⟨preorder.trans _ hx _ hy _ hz h.1 h'.1, fun back => ?_⟩
  have yx := preorder.trans _ hy _ hz _ hx h'.1 back
  have zy := preorder.trans _ hz _ hx _ hy back h.1
  exact Nat.lt_trans (h.2 yx) (h'.2 zy)

/-- Of two items, the earlier one precedes unless it is above the later one. -/
theorem precedes_of_lt (preorder : TotalPreorderOn le items) (hx : x.1 ∈ items)
    (hy : y.1 ∈ items) (before : x.2 < y.2) :
    (le x.1 y.1 → Precedes le x y) ∧ (¬ le x.1 y.1 → Precedes le y x) := by
  refine ⟨fun below => ⟨below, fun _ => before⟩, fun above => ⟨?_, fun below => ?_⟩⟩
  · exact (preorder.total _ hx _ hy).resolve_left above
  · exact absurd below above

theorem zipIdx_pairwise_lt (xs : List α) (n : Nat) :
    (xs.zipIdx n).Pairwise fun x y => x.2 < y.2 := by
  induction xs generalizing n with
  | nil => exact .nil
  | cons x xs ih =>
    rw [List.zipIdx_cons]
    refine List.pairwise_cons.mpr ⟨fun y mem => ?_, ih (n + 1)⟩
    exact List.le_snd_of_mem_zipIdx mem

end Precedes

/-! ## Sorting by a function -/

section Stable

variable {I : σ → Prop} {compare : Comparison σ} {items : List Value} {s : σ}

/-- A sort whose comparisons succeed gives the items in some order. -/
theorem mergeSort_perm
    (succeeds : items.Pairwise fun a b => ∀ s, I s → (compare a b).Yields s fun _ s' => I s')
    (hs : I s) : (mergeSort compare items).Yields s fun out s' => I s' ∧ out.Perm items := by
  have settles : items.Pairwise fun a b => Settles I compare a b True True := by
    refine succeeds.imp fun yields s hs => (yields s hs).mono fun c s' hs' => ⟨hs', ?_⟩
    rw [ite_self]
    trivial
  have sorts : (mergeSort compare (items.map id)).Yields s fun out s' =>
      I s' ∧ Arranged id (fun _ _ => True) items out :=
    mergeSort_yields (fun _ _ _ _ _ => trivial) settles hs
  rw [List.map_id] at sorts
  refine sorts.mono ?_
  rintro _ s' ⟨hs', order, perm, rfl, -⟩
  rw [List.map_id]
  exact ⟨hs', perm⟩

/-- A sort whose answers are a total preorder is stable.  The items are sorted with their
positions, in the order of `Precedes`. -/
theorem mergeSort_stable {answer : Value → Value → Int}
    (answers : ∀ a ∈ items, ∀ b ∈ items, ∀ s, I s →
      (compare a b).Yields s fun c s' => I s' ∧ c = answer a b)
    (preorder : TotalPreorderOn (fun a b => answer a b ≤ 0) items) (hs : I s) :
    (mergeSort compare items).Yields s fun out s' => I s' ∧
      out.Pairwise (fun a b => answer a b ≤ 0) ∧ KeepsTies (fun a b => answer a b ≤ 0) items out := by
  let le : Value → Value → Prop := fun a b => answer a b ≤ 0
  let Place := { x : Value × Nat // x ∈ items.zipIdx }
  let val : Place → Value := fun x => x.val.1
  let R : Place → Place → Prop := fun x y => Precedes le x.val y.val
  have mem : ∀ x : Place, val x ∈ items := fun x => List.fst_mem_of_mem_zipIdx x.property
  have trans : ∀ x y z, R x y → R y z → R x z := fun x y z =>
    Precedes.trans preorder (mem x) (mem y) (mem z)
  have whole := List.attach_map_subtype_val items.zipIdx
  have vals : items.zipIdx.attach.map val = items := by
    have placed : items.zipIdx.attach.map val =
        (items.zipIdx.attach.map Subtype.val).map Prod.fst := by rw [List.map_map]; rfl
    rw [placed, whole, List.zipIdx_map_fst]
  have positions := zipIdx_pairwise_lt items 0
  rw [← whole, List.pairwise_map] at positions
  have settles : items.zipIdx.attach.Pairwise fun x y =>
      Settles I compare (val x) (val y) (R x y) (R y x) := by
    refine positions.imp fun {x y} before s hs => ?_
    refine (answers _ (mem x) _ (mem y) s hs).mono ?_
    rintro c s' ⟨hs', rfl⟩
    have order := precedes_of_lt preorder (mem x) (mem y) before
    refine ⟨hs', ?_⟩
    split
    · next below => exact order.1 below
    · next above => exact order.2 above
  have sorts := mergeSort_yields trans settles hs
  rw [vals] at sorts
  refine sorts.mono ?_
  rintro _ s' ⟨hs', order, perm, rfl, sorted⟩
  refine ⟨hs', ?_, order.map Subtype.val, ?_, ?_, ?_⟩
  · exact List.pairwise_map.mpr (sorted.imp fun before => before.1)
  · exact (perm.map Subtype.val).trans (.of_eq whole)
  · rw [List.map_map]
    rfl
  · exact List.pairwise_map.mpr (sorted.imp fun before _ back => before.2 back)

/-- If a function can compare each item with every later one, sorting with it succeeds and
gives the items in some order.  If its answers are always the same and are a total preorder,
the items are sorted, and those that are tied stand as they did. -/
theorem Function.sort_stable (host : Host σ) (f : Function)
    (succeeds : items.Pairwise fun a b => ∀ s, I s →
      (f.compareWith host a b).Yields s fun _ s' => I s') (hs : I s) :
    ((f.sort host items).Yields s fun out s' => I s' ∧ out.Perm items) ∧
      ∀ answer : Value → Value → Int,
        (∀ a ∈ items, ∀ b ∈ items, ∀ s, I s →
          (f.compareWith host a b).Yields s fun c s' => I s' ∧ c = answer a b) →
        TotalPreorderOn (fun a b => answer a b ≤ 0) items →
        (f.sort host items).Yields s fun out s' => I s' ∧
          out.Pairwise (fun a b => answer a b ≤ 0) ∧
          KeepsTies (fun a b => answer a b ≤ 0) items out :=
  ⟨mergeSort_perm succeeds hs, fun _ answers preorder => mergeSort_stable answers preorder hs⟩

/-- The flag at the front of a vector. -/
def flag : Value → Bool
  | .seq _ _ (.bool b :: _) _ => b
  | _ => false

/-- A host that counts its calls, of which each asks whether only the second flag is up. -/
def flagHost : Host Nat where
  native _ args := do
    modify (· + 1)
    match args with
    | [a, b] => pure (.bool (!flag a && flag b))
    | _ => throw (.internal "two arguments")
  invoke _ _ := throw (.internal "no callables")
  applyTo _ _ := throw (.internal "no callables")

/-- Four vectors are sorted by their flags. -/
theorem Function.sort_stable_flags :
    let f : Function := .native 0 { name := "by-flag", arity := .exactly [2], label := 0 } none
    let items : List Value := [.vector 1 [.bool true, .int 1], .vector 2 [.bool false, .int 2],
      .vector 3 [.bool true, .int 3], .vector 4 [.bool false, .int 4]]
    let answer : Value → Value → Int := fun a b =>
      if flag a = flag b then 0 else if flag b then -1 else 1
    ((f.sort flagHost items).Yields 0 fun out _ => out.Perm items) ∧
      (f.sort flagHost items).Yields 0 fun out _ =>
        out.Pairwise (fun a b => answer a b ≤ 0) ∧ KeepsTies (fun a b => answer a b ≤ 0) items out := by
  intro f items answer
  have answers : ∀ a ∈ items, ∀ b ∈ items, ∀ s : Nat, True →
      (f.compareWith flagHost a b).Yields s fun c _ => True ∧ c = answer a b := by
    intro a ha b hb s _
    simp only [items, List.mem_cons, List.not_mem_nil, or_false] at ha hb
    rcases ha with rfl | rfl | rfl | rfl <;> rcases hb with rfl | rfl | rfl | rfl <;>
      exact ⟨_, _, rfl, trivial, rfl⟩
  have succeeds : items.Pairwise fun a b => ∀ s : Nat, True →
      (f.compareWith flagHost a b).Yields s fun _ _ => True := by
    refine List.Pairwise.imp_of_mem ?_ (List.pairwise_of_forall fun _ _ => trivial)
    intro a b ha hb _ s _
    exact (answers a ha b hb s trivial).mono fun _ _ _ => trivial
  have preorder : TotalPreorderOn (fun a b => answer a b ≤ 0) items := by
    constructor
    · intro a _ b _
      simp only [answer]
      cases flag a <;> cases flag b <;> decide
    · intro a _ b _ c _
      simp only [answer]
      cases flag a <;> cases flag b <;> cases flag c <;> decide
  have sorts := Function.sort_stable (I := fun _ => True) flagHost f succeeds (s := 0) trivial
  exact ⟨sorts.1.mono fun _ _ both => both.2,
    (sorts.2 answer answers preorder).mono fun _ _ both => both.2⟩

end Stable

end ValueCore
