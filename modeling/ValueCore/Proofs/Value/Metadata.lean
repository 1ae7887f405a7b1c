import ValueCore.Proofs.Value.Even
import ValueCore.Value.Metadata
/-!
# Metadata is not seen

Collections carry metadata beside their contents.  Two values are *reannotated* forms of one
another if they differ in the metadata of collections only, at any depth, also in the keys of
maps and in the elements of sets.  A collection around one that is given other metadata is
built anew, so it may lie in another allocation, and a table may list its contents in another
order.

Of values without NaNs, equivalence, equality of content and the two hashes tell the forms
apart in no way, neither from one another nor by any third value (`metadata_unseen`).  A
reannotated form is a copy, and copies are equivalent and of equal content.  All else follows,
since both are equivalence relations and the hashes agree with them.
-/

namespace ValueCore.Value

/-- The second value is the first one with other metadata on its collections, at any depth. -/
inductive Reannotated : Value → Value → Prop where
  | same {v : Value} : Reannotated v v
  | seq {f : SeqForm} {i j : Nat} {xs ys : List Value} {m m' : Option Metadata}
      (h : List.Forall₂ Reannotated xs ys) : Reannotated (.seq f i xs m) (.seq f j ys m')
  | map {i j : Nat} {xs ys zs : List (Value × Value)} {m m' : Option Metadata}
      (keys : List.Forall₂ Reannotated (xs.map Prod.fst) (zs.map Prod.fst))
      (vals : List.Forall₂ Reannotated (xs.map Prod.snd) (zs.map Prod.snd))
      (order : zs.Perm ys) : Reannotated (.map i xs m) (.map j ys m')
  | set {i j : Nat} {xs ys zs : List Value} {m m' : Option Metadata}
      (h : List.Forall₂ Reannotated xs zs) (order : zs.Perm ys) :
      Reannotated (.set i xs m) (.set j ys m')

section Reannotated

variable {μ : Memory} {a a' b : Value}

/-- Giving a collection other metadata makes such a form of it. -/
theorem reannotated_withMetadata (fresh : Nat) {md : Option Metadata}
    (collection : ∀ f, a ≠ .fn f) (given : a.withMetadata fresh md = some a') :
    Reannotated a a' := by
  have refl : ∀ xs : List Value, List.Forall₂ Reannotated xs xs := fun xs =>
    List.forall₂_same.mpr fun _ _ => .same
  cases a with
  | seq f i xs m =>
    cases given
    exact .seq (refl xs)
  | map i es m =>
    cases given
    exact .map (refl _) (refl _) (.refl es)
  | set i xs m =>
    cases given
    exact .set (refl xs) (.refl xs)
  | fn f => exact absurd rfl (collection f)
  | _ => cases given

theorem Reannotated.copy (h : Reannotated a a') : Copy a a' := by
  induction a using children_induction generalizing a' with
  | step a ih =>
    have all : ∀ {xs ys : List Value}, (∀ x ∈ xs, x ∈ a.children) →
        List.Forall₂ Reannotated xs ys → List.Forall₂ Copy xs ys := fun sub h =>
      forall₂_of_mem h fun x mem _ _ tie => ih x (sub x mem) tie
    cases h with
    | same => exact Copy.refl a
    | seq h => exact .seq (all (fun _ mem => mem) h)
    | map keys vals order =>
      exact .map (all (fun _ mem => List.mem_append_left _ mem) keys)
        (all (fun _ mem => List.mem_append_right _ mem) vals) order
    | set h order => exact .set (all (fun _ mem => mem) h) order

/-- Metadata of collections is no part of what equivalence, equality of content and the hashes
see, wherever in a value it is. -/
theorem metadata_unseen (ha : Formed μ a) (ha' : Formed μ a') (hb : Formed μ b)
    (ba : Builtin a) (ba' : Builtin a') (bb : Builtin b) (fa : NaNFree a) (fb : NaNFree b)
    (h : Reannotated a a') :
    (equiv a b = equiv a' b ∧ equiv b a = equiv b a') ∧
      (equals a b = equals a' b ∧ equals b a = equals b a') ∧
      (a.hashEq = a'.hashEq ∧ a.hash = a'.hash) ∧
      (equiv a a' = true ∧ equals a a' = true) ∧
      (∀ here there : Places, here.Sound a b → there.Sound a' b →
        equivSharing here a b = equivSharing there a' b) ∧
      ∀ here there : Places, here.Sound b a → there.Sound b a' →
        equivSharing here b a = equivSharing there b a' := by
  have tie : equiv a a' = true := equiv_of_copy ha ha' fa h.copy
  have content : equals a a' = true := equals_of_copy ha.contains ha'.contains ba h.copy
  have fa' : NaNFree a' := nanFree_of_equals ha.contains ha'.contains ba fa content
  obtain ⟨left, right⟩ := equiv_congr ha ha' hb tie
  have contents : equals a b = equals a' b :=
    equals_congr ha.contains ha'.contains hb.contains ba ba' bb content
  refine ⟨⟨left, right⟩, ⟨contents, ?_⟩, ⟨?_, ?_⟩, ⟨tie, content⟩, ?_, ?_⟩
  · rw [equals_comm hb.contains ha.contains bb ba, equals_comm hb.contains ha'.contains bb ba',
      contents]
  · exact (lawful_formed μ).hashEq_eq ha ha' tie
  · exact hash_eq_of_even ha ha' ba ba' (even_of_nanFree fa) content
  · intro here there sound sound'
    rw [equivSharing_eq_equiv ha hb fa sound, equivSharing_eq_equiv ha' hb fa' sound', left]
  · intro here there sound sound'
    rw [equivSharing_eq_equiv hb ha fb sound, equivSharing_eq_equiv hb ha' fb sound', right]

/-- A map with a list for a key, which is given metadata in its own allocation, and a set
under it with a vector that is.  The map and the set around them are built anew. -/
theorem metadata_unseen_keys :
    let md : Metadata := .mk 9 [(.int 1, .int 1)]
    let key : Value := .list 1 [.int 1]
    let key' : Value := .seq .list 1 [.int 1] (some md)
    let item : Value := .vector 2 [.int 2]
    let item' : Value := .seq .vector 2 [.int 2] (some md)
    let a : Value := .map 0 [(key, .set 3 [item] none)] none
    let a' : Value := .map 4 [(key', .set 5 [item'] none)] (some md)
    let b : Value := .map 6 [(.vector 7 [.int 1], .set 8 [.list 10 [.int 2]] none)] none
    key.withMetadata 0 (some md) = some key' ∧ equiv a b = true ∧ equiv a' b = true ∧
      equals b a' = true ∧ a.hashEq = a'.hashEq ∧ a.hash = a'.hash := by
  intro md key key' item item' a a' b
  let vs : List Value := [a, key, .set 3 [item] none, item, a', .set 5 [item'] none, b,
    .vector 7 [.int 1], .set 8 [.list 10 [.int 2]] none, .list 10 [.int 2]]
  let ν : Memory := .ofList vs (by decide +kernel)
    (by simp [vs, a, a', b, key, item, list, vector])
  let μ : Memory := ν.withKin
  have listed : ∀ v ∈ vs, μ.holds v := fun v mem => ⟨v, .inr mem, .same⟩
  have number : ∀ n, μ.holds (.int n) := fun n => ⟨.int n, .inl trivial, .same⟩
  have given : μ.holds key' ∧ μ.holds item' :=
    ⟨⟨key, .inr (by simp [vs]), .seq⟩, ⟨item, .inr (by simp [vs]), .seq⟩⟩
  have pair : ∀ {form i n m}, μ.holds (.seq form i [.int n] m) →
      Formed μ (.seq form i [.int n] m) := fun held =>
    formed_seq.mpr ⟨held, by simpa [int, formed_num] using number _⟩
  have single : ∀ {i x m}, μ.holds (.set i [x] m) → Formed μ x → Formed μ (.set i [x] m) :=
    fun held hx => formed_set.mpr ⟨⟨held, List.pairwise_singleton _ _⟩, by simpa using hx⟩
  have table : ∀ {i k x m}, μ.holds (.map i [(k, x)] m) → Formed μ k → Formed μ x →
      Formed μ (.map i [(k, x)] m) := fun held hk hx =>
    formed_map.mpr ⟨⟨held, List.pairwise_singleton _ _⟩, by simpa using ⟨hk, hx⟩⟩
  have ha : Formed μ a := table (listed a (by simp [vs])) (pair (listed _ (by simp [vs, key, list])))
    (single (listed _ (by simp [vs])) (pair (listed _ (by simp [vs, item, vector]))))
  have ha' : Formed μ a' := table (listed a' (by simp [vs])) (pair given.1)
    (single (listed _ (by simp [vs])) (pair given.2))
  have hb : Formed μ b := table (listed b (by simp [vs])) (pair (listed _ (by simp [vs, vector])))
    (single (listed _ (by simp [vs])) (pair (listed _ (by simp [vs, list]))))
  have builtin : Builtin a ∧ Builtin a' ∧ Builtin b := by
    simp [Builtin, everywhere_map, everywhere_set, everywhere_seq, everywhere_num, isObject, a, a',
      b, key, key', item, item', list, vector, int]
  have free : NaNFree a ∧ NaNFree b := by
    simp [NaNFree, everywhere_map, everywhere_set, everywhere_seq, everywhere_num, isNaN,
      Number.isNaN, a, b, key, item, list, vector, int]
  have given : key.withMetadata 0 (some md) = some key' := rfl
  have given' : item.withMetadata 0 (some md) = some item' := rfl
  have keys : Reannotated key key' := reannotated_withMetadata 0 (by simp [key, list]) given
  have items : Reannotated item item' := reannotated_withMetadata 0 (by simp [item, vector]) given'
  have form : Reannotated a a' := by
    refine .map ?_ ?_ (.refl _)
    · exact .cons keys .nil
    · exact .cons (.set (.cons items .nil) (.refl _)) .nil
  obtain ⟨tie, content, hashes, -⟩ :=
    metadata_unseen ha ha' hb builtin.1 builtin.2.1 builtin.2.2 free.1 free.2 form
  have same : equiv a b = true := by decide +kernel
  have same' : equals b a = true := by decide +kernel
  exact ⟨given, same, tie.1 ▸ same, content.2 ▸ same', hashes⟩

end Reannotated

end ValueCore.Value
