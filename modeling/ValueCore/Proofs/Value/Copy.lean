import ValueCore.Proofs.Value.Equivalence
/-!
# Copies

A *copy* of a value has the same contents and was built separately.  It has allocations and
metadata of its own, and its maps and sets may be in another order.  A function is copied
as a clone of itself, and a keyword as a handle for the same symbol.

A value without a NaN is equivalent to its copies by structure alone (`equiv_of_copy`).
So identity is only a shortcut for such values: neither the one that equivalence takes at
its start nor those that it takes in shared places, at any depth, change its answer
(`equivSharing_eq_dispatchEquiv`).
-/

namespace ValueCore.Value

/-- The second value was built with the contents of the first. -/
inductive Copy : Value → Value → Prop where
  | nil : Copy .nil .nil
  | bool {x : Bool} : Copy (.bool x) (.bool x)
  | int {n : Int64} : Copy (.num (.int n)) (.num (.int n))
  | big {i j : Nat} {n : Int} : Copy (.num (.big i n)) (.num (.big j n))
  | float {x : Double} : Copy (.num (.float x)) (.num (.float x))
  | ratio {i j : Nat} {r : Ratio} : Copy (.num (.ratio i r)) (.num (.ratio j r))
  | char {c : Char} : Copy (.char c) (.char c)
  | str {i j : Nat} {s : String} : Copy (.str i s) (.str j s)
  | sym {s : Symbol} : Copy (.sym s) (.sym s)
  | kw {k l : Keyword} (h : k.symbol = l.symbol) : Copy (.kw k) (.kw l)
  | seq {f : SeqForm} {i j : Nat} {xs ys : List Value} {m m' : Option Metadata}
      (h : List.Forall₂ Copy xs ys) : Copy (.seq f i xs m) (.seq f j ys m')
  | map {i j : Nat} {xs ys zs : List (Value × Value)} {m m' : Option Metadata}
      (keys : List.Forall₂ Copy (xs.map Prod.fst) (zs.map Prod.fst))
      (vals : List.Forall₂ Copy (xs.map Prod.snd) (zs.map Prod.snd)) (order : zs.Perm ys) :
      Copy (.map i xs m) (.map j ys m')
  | set {i j : Nat} {xs ys zs : List Value} {m m' : Option Metadata}
      (h : List.Forall₂ Copy xs zs) (order : zs.Perm ys) : Copy (.set i xs m) (.set j ys m')
  | fn {f g : Function} (h : f.id = g.id) : Copy (.fn f) (.fn g)
  | object {i j : Nat} {facets : Facets} {xs ys alikes : List Value}
      (h : List.Forall₂ Copy xs ys) :
      Copy (.object i facets xs alikes) (.object j facets ys alikes)

/-- A value is a copy of itself. -/
theorem Copy.refl (v : Value) : Copy v v := by
  induction v using children_induction with
  | step v ih =>
    have all : ∀ xs : List Value, (∀ x ∈ xs, x ∈ v.children) → List.Forall₂ Copy xs xs := by
      intro xs sub
      exact List.forall₂_same.mpr fun x mem => ih x (sub x mem)
    cases v with
    | nil => exact .nil
    | bool x => exact .bool
    | num n =>
      cases n with
      | int n => exact .int
      | big i n => exact .big
      | float x => exact .float
      | ratio i r => exact .ratio
    | char c => exact .char
    | str i s => exact .str
    | sym s => exact .sym
    | kw k => exact .kw rfl
    | seq f i xs m => exact .seq (all xs fun _ mem => mem)
    | map i es m =>
      exact .map (all _ fun _ mem => List.mem_append_left _ mem)
        (all _ fun _ mem => List.mem_append_right _ mem) (.refl es)
    | set i xs m => exact .set (all xs fun _ mem => mem) (.refl xs)
    | fn f => exact .fn rfl
    | object i facets xs alikes => exact .object (all xs fun _ mem => mem)

section NaNFree

variable {μ : Memory} {a b c : Value}

/-- A value without a NaN is equivalent to its copies, whether or not they are identical. -/
theorem dispatchEquiv_of_copy (ha : Formed μ a) (hb : Formed μ b) (free : NaNFree a)
    (h : Copy a b) : dispatchEquiv Places.own a b = true := by
  induction a using children_induction generalizing b with
  | step a ih =>
    have child : ∀ x ∈ a.children, ∀ y ∈ b.children, Copy x y →
        Related (Formed μ) x y := by
      intro x mem y mem' copy
      have tie := ih x mem (ha.child mem) (hb.child mem') (free.child mem) copy
      exact ⟨ha.child mem, hb.child mem', by rw [equiv, equivSharing, tie, Bool.or_true]⟩
    have of_alike : Alike (fun x y => Related (Formed μ) x.2 y.2) a b →
        dispatchEquiv Places.own a b = true := fun alike =>
      dispatchEquiv_of_alike (lawful_formed μ) ha.level hb.level (linked_of_related ha hb alike)
    cases h with
    | nil => rfl
    | bool => simp [dispatchEquiv, dispatch, structuralEquiv, leafEquiv, equals, identical]
    | int => exact of_alike (.num (Number.equal_self rfl))
    | big => exact of_alike (.num (Number.equal_iff.mpr ⟨_, rfl, rfl⟩))
    | float => exact of_alike (.num (Number.equal_self free.here))
    | ratio => exact of_alike (.num (Number.equal_iff.mpr ⟨_, rfl, rfl⟩))
    | char => exact of_alike .char
    | str => exact of_alike .str
    | sym => exact of_alike .sym
    | kw h =>
      have cells := μ.interned ha.level.held hb.level.held h
      simp [dispatchEquiv, dispatch, structuralEquiv, leafEquiv, equals, identical, Keyword.same,
        cells]
    | seq h => exact of_alike (.of_elements rfl rfl (forall₂_of_mem h child))
    | @map i j xs ys zs m m' keys vals order =>
      rw [List.forall₂_map_left_iff, List.forall₂_map_right_iff] at keys vals
      have entries : List.Forall₂ (Entrywise Copy) xs zs :=
        List.Forall₂.mp (fun _ _ k v => ⟨k, v⟩) keys vals
      refine of_alike (.of_entries ⟨zs, forall₂_of_mem entries ?_, order⟩)
      rintro e mem e' mem' ⟨key, val⟩
      have mem'' := order.subset mem'
      exact ⟨child _ (key_mem_children mem) _ (key_mem_children mem'') key,
        child _ (val_mem_children mem) _ (val_mem_children mem'') val⟩
    | set h order =>
      refine of_alike (.of_members ⟨_, forall₂_of_mem h ?_, order⟩)
      intro x mem y mem'
      exact child x mem y (order.subset mem')
    | fn h => simp [dispatchEquiv, dispatch, structuralEquiv, leafEquiv, equals, identical, h]
    | @object i j facets xs ys alikes h =>
      obtain ⟨-, n, coll⟩ := ha.level.plain
      have elements : ∀ k zs, (Value.object k facets zs alikes).elements? = some zs := by
        intro k zs
        simp [elements?, coll]
      exact of_alike (.of_elements (elements i xs) (elements j ys) (forall₂_of_mem h child))

theorem equiv_of_copy (ha : Formed μ a) (hb : Formed μ b) (free : NaNFree a)
    (h : Copy a b) : equiv a b = true := by
  rw [equiv, equivSharing, dispatchEquiv_of_copy ha hb free h, Bool.or_true]

/-- Children without NaNs meet just if they are equivalent. -/
theorem equivAt_eq_equiv {same : Places} {x y : Placed} (ha : Formed μ a) (fa : NaNFree a)
    (sound : same.Sound a b) (hx : a.HasChild x) (hy : b.HasChild y)
    (tie : equivSharing same x.2 y.2 = equiv x.2 y.2) :
    equivAt same x.1 y.1 x.2 y.2 = equiv x.2 y.2 := by
  rw [equivAt, tie]
  cases place : same.meet x.1 y.1 with
  | false => rfl
  | true =>
    have self : equiv x.2 x.2 = true :=
      equiv_of_copy (ha.child hx.1) (ha.child hx.1) (fa.child hx.1) (Copy.refl _)
    rw [← sound.eq_of_meet hx hy place, self, Bool.true_or]

/-- Without NaNs, shared places change no answer. -/
theorem dispatchEquiv_eq_own {same : Places} (ha : Formed μ a) (hb : Formed μ b)
    (fa : NaNFree a) (sound : same.Sound a b) :
    dispatchEquiv same a b = dispatchEquiv Places.own a b := by
  induction a using children_induction generalizing b with
  | step a ih =>
    have own : Places.own.Sound a b := (Layout.own μ).sound ha.contains hb.contains
    rw [dispatchEquiv, dispatchEquiv, structuralEquiv_congr]
    intro x y hx hy
    have tie : equivSharing same x.2 y.2 = equiv x.2 y.2 := by
      rw [equiv, equivSharing, equivSharing, ih x.2 hx.1 (ha.child hx.1) (hb.child hy.1)
        (fa.child hx.1) (sound.child hx.1 hy.1)]
    rw [MeetAlike, equivAt_eq_equiv ha fa sound hx hy tie, equivAt_eq_equiv ha fa own hx hy rfl]

theorem equivSharing_eq_equiv {same : Places} (ha : Formed μ a) (hb : Formed μ b)
    (fa : NaNFree a) (sound : same.Sound a b) : equivSharing same a b = equiv a b := by
  rw [equiv, equivSharing, equivSharing, dispatchEquiv_eq_own ha hb fa sound]

/-- Without NaNs, identity decides nothing that structure would not. -/
theorem equivSharing_eq_dispatchEquiv {same : Places} (ha : Formed μ a) (hb : Formed μ b)
    (fa : NaNFree a) (sound : same.Sound a b) :
    equivSharing same a b = dispatchEquiv Places.apart a b := by
  rw [dispatchEquiv_eq_own ha hb fa (Places.apart_sound a b), equivSharing,
    dispatchEquiv_eq_own ha hb fa sound]
  cases ident : identical a b with
  | false => rfl
  | true =>
    rw [← (μ.twin ha.level.held hb.level.held ident).dispatchEquiv_right,
      dispatchEquiv_of_copy ha ha fa (Copy.refl a), Bool.true_or]

/-- On values without a NaN, equivalence is an equivalence relation that identity has no
part in. -/
theorem equiv_equivalence (ha : Formed μ a) (hb : Formed μ b) (hc : Formed μ c)
    (fa : NaNFree a) :
    equiv a b = equiv b a ∧
      (equiv a b = true → equiv b c = true → equiv a c = true) ∧
      (Copy a b → equiv a b = true) ∧
      ∀ same : Places, same.Sound a b →
        equivSharing same a b = dispatchEquiv Places.apart a b := by
  have laws := lawful_formed μ
  refine ⟨?_, laws.trans ha hb hc, equiv_of_copy ha hb fa, fun same sound =>
    equivSharing_eq_dispatchEquiv ha hb fa sound⟩
  rw [Bool.eq_iff_iff]
  exact ⟨laws.symm ha hb, laws.symm hb ha⟩

/-- Maps whose keys and values go through three representations. -/
theorem equiv_equivalence_maps :
    let a : Value := .map 0 [(.int 1, .int 2), (.int 3, .int 4)] none
    let b : Value :=
      .map 1 [(.num (.big 2 3), .int 4), (.float ⟨0x3ff0000000000000⟩, .int 2)] none
    let c : Value := .map 3 [(.int 1, .float ⟨0x4000000000000000⟩), (.int 3, .int 4)] none
    equiv a b = equiv b a ∧ equiv a c = true ∧
      equivSharing Places.apart a b = dispatchEquiv Places.apart a b := by
  intro a b c
  let μ : Memory := .ofList [a, b, c, .num (.big 2 3)] (by decide) (by simp [a, b, c])
  have distinct : a.Distinct ∧ b.Distinct ∧ c.Distinct := by decide +kernel
  have ha : Formed μ a := by
    refine formed_map.mpr ⟨⟨.inr (by simp [a]), distinct.1⟩, ?_⟩
    simp [int, formed_num, μ, Memory.ofList, Memory.Direct]
  have hb : Formed μ b := by
    refine formed_map.mpr ⟨⟨.inr (by simp [b]), distinct.2.1⟩, ?_⟩
    simp [int, float, formed_num, μ, Memory.ofList, Memory.Direct]
  have hc : Formed μ c := by
    refine formed_map.mpr ⟨⟨.inr (by simp [c]), distinct.2.2⟩, ?_⟩
    simp [int, float, formed_num, μ, Memory.ofList, Memory.Direct]
  have fa : NaNFree a := by
    refine everywhere_map.mpr ⟨rfl, ?_⟩
    simp [int, everywhere_num, isNaN, Number.isNaN]
  have laws := equiv_equivalence ha hb hc fa
  exact ⟨laws.1, laws.2.1 (by decide +kernel) (by decide +kernel),
    laws.2.2.2 Places.apart (Places.apart_sound a b)⟩

end NaNFree

end ValueCore.Value
