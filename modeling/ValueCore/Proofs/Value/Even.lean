import ValueCore.Proofs.Value.Content
/-!
# Equal content and the hash of content

The hash of a map or a set is a sum over all that it holds.  Equality of content does not
ask how often something occurs.  Without NaNs this makes no difference, as everything
occurs once.  But several elements of one set may have equal content if there are NaNs in
them, and another set of equal content may hold them in other numbers.

A collection is *even* if its hash does not depend on these numbers: nothing in it occurs
twice up to content, or all that may occur twice hashes alike.  A value that is even
throughout has the hash of every value of equal content (`hash_eq_of_even`).
-/

namespace ValueCore.Value

section Even

variable {μ : Memory} {a b c : Value}

/-! ## Even collections -/

/-- No two elements of a set, or entries of a map, have equal content, or else all with a
NaN in the element, or key, hash alike. -/
def EvenHere : Value → Prop
  | .map _ es _ =>
    (es.Pairwise fun e e' => entryEquals e e' = false) ∨
      ∀ e ∈ es, ∀ e' ∈ es, ¬ NaNFree e.1 → ¬ NaNFree e'.1 → hashEntry e = hashEntry e'
  | .set _ xs _ =>
    (xs.Pairwise fun x y => equals x y = false) ∨
      ∀ x ∈ xs, ∀ y ∈ xs, ¬ NaNFree x → ¬ NaNFree y → x.hash = y.hash
  | _ => True

/-- All collections in a value are even. -/
def Even : Value → Prop := Everywhere EvenHere

/-- Values without NaNs are even. -/
theorem even_of_nanFree (free : NaNFree a) : Even a := by
  intro u part
  have free' := free.of_part part
  cases u with
  | set i xs m => exact Or.inr fun x mem y _ nan => absurd (free'.child mem) nan
  | map i es m =>
    exact Or.inr fun e mem e' _ nan => absurd (free'.child (key_mem_children mem)) nan
  | _ => trivial

theorem hashFold_eq_foldl (h : UInt32) (xs : List Value) :
    hashFold h xs = (xs.map hash).foldl (fun h w => h * 31 + w) h := by
  induction xs generalizing h with
  | nil => rfl
  | cons x xs ih => rw [hashFold, ih, List.map_cons, List.foldl_cons]

theorem hashSum_eq_sum (xs : List Value) : hashSum xs = (xs.map hash).sum := by
  induction xs with
  | nil => rfl
  | cons x xs ih => rw [hashSum, ih, List.map_cons, List.sum_cons]

theorem hashEntries_eq_sum (es : List (Value × Value)) :
    hashEntries es = (es.map hashEntry).sum := by
  induction es with
  | nil => rfl
  | cons e es ih => rw [hashEntries, ih, List.map_cons, List.sum_cons]

/-- Two formed values have equal content and one hash. -/
structure Same (μ : Memory) (x y : Value) : Prop where
  left : Formed μ x ∧ Builtin x
  right : Formed μ y ∧ Builtin y
  equals : equals x y = true
  hash : x.hash = y.hash

theorem Same.symm {x y : Value} (h : Same μ x y) : Same μ y x :=
  ⟨h.right, h.left, equals_symm h.left.1.contains h.right.1.contains h.left.2 h.right.2 h.equals,
    h.hash.symm⟩

theorem Same.trans {x y z : Value} (h : Same μ x y) (h' : Same μ y z) : Same μ x z :=
  ⟨h.left, h'.right, equals_trans h.left.1.contains h.right.1.contains h'.right.1.contains
    h.left.2 h.right.2 h'.right.2 h.equals h'.equals, h.hash.trans h'.hash⟩

theorem Same.nanFree {x y : Value} (h : Same μ x y) (free : NaNFree x) : NaNFree y :=
  nanFree_of_equals h.left.1.contains h.right.1.contains h.left.2 free h.equals

theorem Same.equiv {x y : Value} (h : Same μ x y) (free : NaNFree x) :
    Value.equiv x y = true :=
  equiv_of_equals h.left.1 h.right.1 h.left.2 free h.equals

theorem hashEntry_eq_of_same {e e' : Value × Value} (h : Entrywise (Same μ) e e') :
    hashEntry e = hashEntry e' := by
  obtain ⟨k, v⟩ := e
  obtain ⟨k', v'⟩ := e'
  rw [hashEntry, hashEntry, h.1.hash, h.2.hash]

theorem hash_eq_of_resembles_set {i j : Nat} {xs ys : List Value} {m m' : Option Metadata}
    (da : Distinct (.set i xs m)) (db : Distinct (.set j ys m'))
    (even : EvenHere (.set i xs m)) (length : xs.length = ys.length)
    (there : ∀ x ∈ xs, ∃ y ∈ ys, Same μ x y) (back : ∀ y ∈ ys, ∃ x ∈ xs, Same μ x y) :
    hash (.set i xs m) = hash (.set j ys m') := by
  rw [hash, hash, hashSum_eq_sum, hashSum_eq_sum]
  have symm : ∀ x y, Same μ x y → Same μ y x := fun _ _ => Same.symm
  have trans : ∀ x y z, Same μ x y → Same μ y z → Same μ x z := fun _ _ _ => Same.trans
  rcases even with apart | level
  · refine (Matching.of_apart symm trans ?_ length there).sum_eq fun _ _ same => same.hash
    refine apart.imp fun different same => ?_
    rw [same.equals] at different
    cases different
  · have once : ∀ {zs : List Value}, (zs.Pairwise fun x y => Value.equiv x y = false) →
        zs.Pairwise fun x y => NaNFree x → ¬ Same μ x y := by
      refine fun distinct => distinct.imp fun different free same => ?_
      rw [same.equiv free] at different
      cases different
    exact sum_eq_of_level symm trans (fun _ _ same => same.hash) (fun _ _ same => same.nanFree)
      (once da) (once db) level length there back

theorem hash_eq_of_resembles_map {i j : Nat} {xs ys : List (Value × Value)}
    {m m' : Option Metadata} (da : Distinct (.map i xs m)) (db : Distinct (.map j ys m'))
    (even : EvenHere (.map i xs m)) (length : xs.length = ys.length)
    (there : ∀ e ∈ xs, ∃ e' ∈ ys, Entrywise (Same μ) e e')
    (back : ∀ e' ∈ ys, ∃ e ∈ xs, Entrywise (Same μ) e e') :
    hash (.map i xs m) = hash (.map j ys m') := by
  rw [hash, hash, hashEntries_eq_sum, hashEntries_eq_sum]
  have symm : ∀ e e', Entrywise (Same μ) e e' → Entrywise (Same μ) e' e :=
    fun _ _ both => ⟨both.1.symm, both.2.symm⟩
  have trans : ∀ e e' e'', Entrywise (Same μ) e e' → Entrywise (Same μ) e' e'' →
      Entrywise (Same μ) e e'' :=
    fun _ _ _ both both' => ⟨both.1.trans both'.1, both.2.trans both'.2⟩
  have agree : ∀ e e', Entrywise (Same μ) e e' → hashEntry e = hashEntry e' :=
    fun _ _ => hashEntry_eq_of_same
  rcases even with apart | level
  · refine (Matching.of_apart symm trans ?_ length there).sum_eq agree
    refine apart.imp fun different both => ?_
    rw [entryEquals_iff.mpr ⟨both.1.equals, both.2.equals⟩] at different
    cases different
  · have once : ∀ {zs : List (Value × Value)},
        ((zs.map Prod.fst).Pairwise fun x y => Value.equiv x y = false) →
        zs.Pairwise fun e e' => NaNFree e.1 → ¬ Entrywise (Same μ) e e' := by
      refine fun distinct => (List.pairwise_map.mp distinct).imp fun different free both => ?_
      rw [both.1.equiv free] at different
      cases different
    exact sum_eq_of_level symm trans agree (fun _ _ both => both.1.nanFree) (once da) (once db)
      level length there back

/-- A value that is even throughout has the hash of every value of equal content. -/
theorem hash_eq_of_even (ha : Formed μ a) (hb : Formed μ b) (ba : Builtin a) (bb : Builtin b)
    (even : Even a) (h : equals a b = true) : a.hash = b.hash := by
  induction a using children_induction generalizing b with
  | step a ih =>
    rcases (equals_iff ba.here).mp h with ident | alike
    · exact (μ.twin ha.level.held hb.level.held ident).hash_eq
    have same := alike.of_mem (s := Same μ) fun x hx y hy tie =>
      ⟨⟨ha.child hx, ba.child hx⟩, ⟨hb.child hy, bb.child hy⟩, tie,
        ih x hx (ha.child hx) (hb.child hy) (ba.child hx) (bb.child hy) (even.child hx) tie⟩
    cases same with
    | num same => exact Number.hash_eq_of_sameContent same
    | char => rfl
    | str => rfl
    | sym => rfl
    | seq pairs =>
      rw [hash, hash, hashFold_eq_foldl, hashFold_eq_foldl,
        map_eq_of_forall₂ (fun _ _ same => same.hash) pairs]
    | map length there back =>
      exact hash_eq_of_resembles_map ha.distinct hb.distinct even.here length there
        back
    | set length there back =>
      exact hash_eq_of_resembles_set ha.distinct hb.distinct even.here length there
        back

end Even

end ValueCore.Value
