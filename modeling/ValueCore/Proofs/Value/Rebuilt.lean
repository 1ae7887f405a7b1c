import ValueCore.Proofs.Hash.Lossless
import ValueCore.Proofs.Value.Even
/-!
# Values rebuilt beside others

Only even values have the hash of all values of equal content (`hash_eq_of_equals_iff`).
For a value that is not even, another one of equal content and different hash is built.

A value with a NaN can be built once more, in allocations of its own, with the same
content and hash (`exists_rebuilt`).  It is then equivalent to nothing that was there
before, so it may stand in a set beside the original.  Let it take the place of an element
whose content occurs elsewhere in the set.  The content of the set stays, and the sum of
the hashes changes if the two elements hash differently (`exists_rebuilt_set`).  Around the
new set all collections up to the whole value are built anew (`Rebuilt.exists_around`).
The difference survives, because the hash of a collection is injective in the hash of each
child.
-/

namespace ValueCore

namespace Value

/-! ## Fresh numbers -/

/-- The number of the allocation of a collection, `0` for all else. -/
def number (v : Value) : Nat :=
  match v.home? with
  | some (.sequence i) => i
  | some (.map i) => i
  | some (.set i) => i
  | _ => 0

/-- A value is a list, vector, map or set. -/
def Container : Value → Prop
  | .seq _ _ _ _ | .map _ _ _ | .set _ _ _ => True
  | _ => False

theorem number_eq_of_home? {u v : Value} (h : u.home? = v.home?) : u.number = v.number := by
  rw [number, number, h]

/-- What is in the allocation of a container has its number. -/
theorem number_eq_of_allocation? {u v : Value} (container : v.Container)
    (h : u.allocation? = v.allocation?) : u.number = v.number := by
  refine number_eq_of_home? ?_
  cases v <;> first | exact container.elim | skip
  all_goals cases u with
    | num n => cases n <;> cases h
    | _ => first | exact h | cases h

/-- The numbers in a value have a bound. -/
theorem exists_number_bound (v : Value) : ∃ n, ∀ u, Part u v → u.number < n := by
  induction v using children_induction with
  | step v ih =>
    have inside : ∀ xs : List Value, (∀ x ∈ xs, x ∈ v.children) →
        ∃ n, ∀ x ∈ xs, ∀ u, Part u x → u.number < n := by
      intro xs sub
      induction xs with
      | nil => exact ⟨0, fun x mem => by cases mem⟩
      | cons x xs ihx =>
        obtain ⟨m, rest⟩ := ihx fun y mem => sub y (List.mem_cons_of_mem _ mem)
        obtain ⟨k, first⟩ := ih x (sub x List.mem_cons_self)
        refine ⟨max k m, fun y mem u part => ?_⟩
        rcases List.mem_cons.mp mem with rfl | mem
        · exact lt_max_of_lt_left (first u part)
        · exact lt_max_of_lt_right (rest y mem u part)
    obtain ⟨n, bound⟩ := inside v.children fun _ mem => mem
    refine ⟨max n (v.number + 1), fun u part => ?_⟩
    cases part with
    | self => exact lt_max_of_lt_right (Nat.lt_succ_self _)
    | inside mem part => exact lt_max_of_lt_left (bound _ mem u part)

end Value

namespace Memory

/-- A memory with all its values but those with a property. -/
def restrict (μ : Memory) (P : Value → Prop) : Memory where
  holds v := μ.holds v ∧ P v
  shared hu hv := μ.shared hu.1 hv.1
  interned hk hl h := μ.interned hk.1 hl.1 h

/-- A memory with one container more, under a number of its own. -/
def insert (μ : Memory) (v : Value) (container : v.Container)
    (fresh : ∀ u, μ.holds u → u.number ≠ v.number) : Memory where
  holds u := u = v ∨ μ.holds u
  shared {u w number} hu hw here there := by
    have same := here.trans there.symm
    rcases hu with rfl | hu
    · rcases hw with rfl | hw
      · exact .same
      · exact absurd (Value.number_eq_of_allocation? container same.symm) (fresh w hw)
    · rcases hw with rfl | hw
      · exact absurd (Value.number_eq_of_allocation? container same) (fresh u hu)
      · exact μ.shared hu hw here there
  interned {k l} hk hl h := by
    rcases hk with rfl | hk
    · cases container
    · rcases hl with rfl | hl
      · cases container
      · exact μ.interned hk hl h

end Memory

namespace Value

theorem Formed.mono {μ ν : Memory} {v : Value} (h : Formed μ v)
    (grows : ∀ u, μ.holds u → ν.holds u) : Formed ν v :=
  Everywhere.mono h fun u conditions => ⟨grows u conditions.1, conditions.2⟩

/-! ## Rebuilding -/

/-- A value of the content of `v`, in a larger memory with numbers below `n`, that is
equivalent to nothing in the memory before. -/
structure Rebuilt (μ : Memory) (v v' : Value) (ν : Memory) (n : Nat) : Prop where
  grows : ∀ u, μ.holds u → ν.holds u
  below : ∀ u, ν.holds u → u.number < n
  formed : Formed ν v'
  builtin : Builtin v'
  stray : ∀ w, Formed μ w → equiv v' w = false
  equals : equals v v' = true

/-- Every child of a value has a partner among those of a value alike. -/
theorem Alike.exists_right {r : Placed → Placed → Prop} {a b x : Value} (h : Alike r a b)
    (mem : x ∈ a.children) : ∃ p q, p.2 = x ∧ a.HasChild p ∧ b.HasChild q ∧ r p q := by
  cases h with
  | num h => cases mem
  | char => cases mem
  | str => cases mem
  | sym => cases mem
  | seq ha hb h =>
    rw [children_of_elements ha] at mem
    obtain ⟨p, hp, rfl⟩ := exists_placed a.home? 0 mem
    obtain ⟨q, hq, tie⟩ := exists_of_forall₂ h hp
    exact ⟨p, q, rfl, hasChild_of_elements ha hp, hasChild_of_elements hb hq, tie⟩
  | @map i j es es' m m' h =>
    obtain ⟨e, mem', here⟩ := exists_entry_of_mem_children mem
    obtain ⟨d, hd, rfl⟩ := exists_placedEntries (some (.map i)) 0 mem'
    obtain ⟨d', hd', tie⟩ := h.exists_right hd
    have left := hasChild_of_entries (m := m) hd
    have right := hasChild_of_entries (m := m') hd'
    rcases here with rfl | rfl
    · exact ⟨d.1, d'.1, rfl, left.1, right.1, tie.1⟩
    · exact ⟨d.2, d'.2, rfl, left.2, right.2, tie.2⟩
  | @set i j xs ys m m' h =>
    obtain ⟨p, hp, rfl⟩ := exists_placed (some (.set i)) 0 mem
    obtain ⟨q, hq, tie⟩ := h.exists_right hp
    exact ⟨p, q, rfl, hasChild_of_members hp, hasChild_of_members hq, tie⟩

/-- Children in one spot are children of one allocation. -/
theorem home?_eq_of_meet {u v : Value} {p q : Placed} (hp : u.HasChild p) (hq : v.HasChild q)
    (h : Places.own.meet p.1 q.1 = true) : u.home? = v.home? := by
  obtain ⟨s, hs, t, ht, one⟩ := Places.exists_of_meet h
  cases beq_iff_eq.mp one
  obtain ⟨home, here, there⟩ := exists_home_of_at? (hp.2 s hs) (hq.2 s ht)
  rw [here, there]

section Rebuilt

variable {μ ν : Memory} {v v' x x' : Value} {n : Nat}

/-- What was there before is equivalent to a rebuilt value in neither direction. -/
theorem Rebuilt.apart (hx : Rebuilt μ x x' ν n) {w : Value} (hw : Formed μ w) :
    equiv x' w = false ∧ equiv w x' = false := by
  have stray := hx.stray w hw
  refine ⟨stray, ?_⟩
  cases back : equiv w x' with
  | false => rfl
  | true =>
    have turned : equiv x' w = true := (lawful_formed ν).symm (hw.mono hx.grows) hx.formed back
    rw [turned] at stray
    cases stray

/-- A container under a new number, around a rebuilt value and others that were there
before. -/
theorem Rebuilt.container (hx : Rebuilt μ x x' ν n) (container : v'.Container)
    (number : v'.number = n) (mem : x' ∈ v'.children)
    (children : ∀ y ∈ v'.children, y = x' ∨ Formed μ y ∧ Builtin y) (distinct : v'.Distinct)
    (same : Value.equals v v' = true) : ∃ ν', Rebuilt μ v v' ν' (n + 1) := by
  have fresh : ∀ u, ν.holds u → u.number ≠ v'.number := by
    intro u hu
    rw [number]
    exact Nat.ne_of_lt (hx.below u hu)
  have grows : ∀ u, ν.holds u → (ν.insert v' container fresh).holds u := fun u => Or.inr
  have plain : v'.Plain ∧ v'.isObject = false := by
    cases v' <;> first | exact container.elim | exact ⟨trivial, rfl⟩
  have formed : Formed (ν.insert v' container fresh) v' := by
    refine everywhere_iff.mpr ⟨⟨Or.inl rfl, distinct, plain.1⟩, fun y mem' => ?_⟩
    rcases children y mem' with rfl | old
    · exact hx.formed.mono grows
    · exact (old.1.mono hx.grows).mono grows
  refine ⟨ν.insert v' container fresh, fun u hu => grows u (hx.grows u hu), ?_, formed, ?_, ?_,
    same⟩
  · rintro u (rfl | hu)
    · omega
    · exact Nat.lt_succ_of_lt (hx.below u hu)
  · refine everywhere_iff.mpr ⟨plain.2, fun y mem' => ?_⟩
    rcases children y mem' with rfl | old
    · exact hx.builtin
    · exact old.2
  · -- a partner would have an element for a partner of `x'`
    intro w hw
    cases tie : equiv v' w with
    | false => rfl
    | true =>
      have hw' := (hw.mono hx.grows).mono grows
      have apart : w.home? ≠ v'.home? := fun same =>
        fresh w (hx.grows w hw.here.1) (number_eq_of_home? same)
      rcases (equiv_iff formed hw').mp tie with ident | alike
      · exact absurd (Memory.twin (Or.inl rfl) hw'.here.1 ident).home?_eq.symm apart
      · obtain ⟨p, q, rfl, hp, hq, linked⟩ := alike.exists_right mem
        rcases linked.cases with ⟨place, -⟩ | tie'
        · exact absurd (home?_eq_of_meet hp hq place).symm apart
        · exact absurd ((hx.stray q.2 (hw.child hq.1)).symm.trans tie') (by decide)

/-! ## One element in the place of another -/

theorem pairwise_replace {α : Type} {R : α → α → Prop} {l r : List α} {x y : α}
    (h : (l ++ x :: r).Pairwise R) (left : ∀ z ∈ l, R z y) (right : ∀ z ∈ r, R y z) :
    (l ++ y :: r).Pairwise R := by
  rw [List.pairwise_append, List.pairwise_cons] at h ⊢
  obtain ⟨hl, ⟨-, hr⟩, across⟩ := h
  refine ⟨hl, ⟨right, hr⟩, fun z hz w hw => ?_⟩
  rcases List.mem_cons.mp hw with rfl | hw
  · exact left z hz
  · exact across z hz w (List.mem_cons_of_mem _ hw)

theorem forall₂_replace {α : Type} {R : α → α → Prop} {l r : List α} {x y : α}
    (refl : ∀ z ∈ l ++ x :: r, R z z) (h : R x y) :
    List.Forall₂ R (l ++ x :: r) (l ++ y :: r) := by
  have left : List.Forall₂ R l l :=
    List.forall₂_same.mpr fun z mem => refl z (List.mem_append_left _ mem)
  have right : List.Forall₂ R r r :=
    List.forall₂_same.mpr fun z mem =>
      refl z (List.mem_append_right _ (List.mem_cons_of_mem _ mem))
  exact List.rel_append left (.cons h right)

theorem sum_replace {α : Type} {f : α → UInt32} {l r : List α} {x y : α} :
    ((l ++ y :: r).map f).sum = ((l ++ x :: r).map f).sum ↔ f y = f x := by
  simp only [List.map_append, List.map_cons, List.sum_append, List.sum_cons]
  constructor
  · intro h
    exact add_right_cancel (add_left_cancel h)
  · intro h
    rw [h]

theorem hashFold_inj {h h' : UInt32} {xs : List Value} :
    hashFold h xs = hashFold h' xs ↔ h = h' := by
  induction xs generalizing h h' with
  | nil => rfl
  | cons x xs ih =>
    rw [hashFold, hashFold, ih]
    constructor
    · intro same
      -- `31` is odd, so it can be divided by
      have scaled : h * 31 = h' * 31 := add_right_cancel same
      exact Murmur.mul_injective (by decide) scaled
    · rintro rfl
      rfl

theorem hashFold_append (h : UInt32) (l r : List Value) :
    hashFold h (l ++ r) = hashFold (hashFold h l) r := by
  induction l generalizing h with
  | nil => rfl
  | cons x l ih => rw [List.cons_append, hashFold, hashFold, ih]

theorem hashFold_replace {h : UInt32} {l r : List Value} {x y : Value} :
    hashFold h (l ++ y :: r) = hashFold h (l ++ x :: r) ↔ y.hash = x.hash := by
  rw [hashFold_append, hashFold_append, hashFold, hashFold, hashFold_inj]
  constructor
  · exact add_left_cancel
  · intro same
    rw [same]

theorem mem_replace {α : Type} {l r : List α} {x y z : α} (mem : z ∈ l ++ y :: r) :
    z = y ∨ z ∈ l ++ x :: r := by
  rcases List.mem_append.mp mem with left | right
  · exact Or.inr (List.mem_append_left _ left)
  · rcases List.mem_cons.mp right with here | right
    · exact Or.inl here
    · exact Or.inr (List.mem_append_right _ (List.mem_cons_of_mem _ right))

/-- New keys are distinct if a rebuilt value is put in the place of an old one. -/
theorem Rebuilt.distinct {w : Value} {l r : List Value} (hx : Rebuilt μ w x' ν n)
    (old : ∀ y ∈ l ++ x :: r, Formed μ y)
    (distinct : (l ++ x :: r).Pairwise fun y z => equiv y z = false) :
    (l ++ x' :: r).Pairwise fun y z => equiv y z = false := by
  refine pairwise_replace distinct (fun y mem => ?_) fun y mem => ?_
  · exact (hx.apart (old y (List.mem_append_left _ mem))).2
  · exact (hx.apart (old y (List.mem_append_right _ (List.mem_cons_of_mem _ mem)))).1

section Containers

variable {w : Value} {i : Nat} {m : Option Metadata}

theorem Rebuilt.seq {f : SeqForm} {l r : List Value} (hv : Formed μ (.seq f i (l ++ x :: r) m))
    (bv : Builtin (.seq f i (l ++ x :: r) m)) (hx : Rebuilt μ w x' ν n)
    (same : Value.equals (.seq f i (l ++ x :: r) m) (.seq f n (l ++ x' :: r) m) = true) :
    ∃ ν', Rebuilt μ (.seq f i (l ++ x :: r) m) (.seq f n (l ++ x' :: r) m) ν' (n + 1) := by
  refine hx.container trivial rfl (List.mem_append_right _ List.mem_cons_self) (fun y mem => ?_)
    List.Pairwise.nil same
  exact (mem_replace mem).imp_right fun old => ⟨hv.child old, bv.child old⟩

theorem Rebuilt.set {l r : List Value} (hv : Formed μ (.set i (l ++ x :: r) m))
    (bv : Builtin (.set i (l ++ x :: r) m)) (hx : Rebuilt μ w x' ν n)
    (same : Value.equals (.set i (l ++ x :: r) m) (.set n (l ++ x' :: r) m) = true) :
    ∃ ν', Rebuilt μ (.set i (l ++ x :: r) m) (.set n (l ++ x' :: r) m) ν' (n + 1) := by
  refine hx.container trivial rfl (List.mem_append_right _ List.mem_cons_self) (fun y mem => ?_)
    (hx.distinct (fun y mem => hv.child mem) hv.distinct) same
  exact (mem_replace mem).imp_right fun old => ⟨hv.child old, bv.child old⟩

/-- The entries of a map under a new number are old ones, except for one. -/
theorem children_replace {l r : List (Value × Value)} {e : Value × Value} {y : Value}
    (e' : Value × Value)
    (hv : Formed μ (.map i (l ++ e :: r) m)) (bv : Builtin (.map i (l ++ e :: r) m))
    (key : e'.1 = x' ∨ Formed μ e'.1 ∧ Builtin e'.1)
    (val : e'.2 = x' ∨ Formed μ e'.2 ∧ Builtin e'.2)
    (mem : y ∈ (Value.map n (l ++ e' :: r) m).children) : y = x' ∨ Formed μ y ∧ Builtin y := by
  obtain ⟨d, mem', here⟩ := exists_entry_of_mem_children mem
  have old : d = e' ∨ d ∈ l ++ e :: r := mem_replace mem'
  rcases old with rfl | old
  · rcases here with rfl | rfl
    · exact key
    · exact val
  · rcases here with rfl | rfl
    · exact Or.inr ⟨hv.child (key_mem_children old), bv.child (key_mem_children old)⟩
    · exact Or.inr ⟨hv.child (val_mem_children old), bv.child (val_mem_children old)⟩

theorem Rebuilt.map_key {l r : List (Value × Value)} {e : Value × Value} {u : Value}
    (hv : Formed μ (.map i (l ++ e :: r) m)) (bv : Builtin (.map i (l ++ e :: r) m))
    (hx : Rebuilt μ w x' ν n) (hu : Formed μ u ∧ Builtin u)
    (same : Value.equals (.map i (l ++ e :: r) m) (.map n (l ++ (x', u) :: r) m) = true) :
    ∃ ν', Rebuilt μ (.map i (l ++ e :: r) m) (.map n (l ++ (x', u) :: r) m) ν' (n + 1) := by
  have distinct : Distinct (.map n (l ++ (x', u) :: r) m) := by
    have apart := hv.distinct
    have old : ∀ y ∈ l.map Prod.fst ++ e.1 :: r.map Prod.fst, Formed μ y := by
      intro y mem
      rw [← List.map_cons, ← List.map_append] at mem
      exact hv.child (List.mem_append_left _ mem)
    rw [Distinct, keys, List.map_append, List.map_cons] at apart ⊢
    exact hx.distinct old apart
  refine hx.container trivial rfl ?_ (fun y mem => ?_) distinct same
  · exact key_mem_children (List.mem_append_right _ List.mem_cons_self)
  · exact children_replace (x', u) hv bv (Or.inl rfl) (Or.inr hu) mem

theorem Rebuilt.map_val {l r : List (Value × Value)} {e : Value × Value}
    (hv : Formed μ (.map i (l ++ e :: r) m)) (bv : Builtin (.map i (l ++ e :: r) m))
    (hx : Rebuilt μ w x' ν n)
    (same : Value.equals (.map i (l ++ e :: r) m) (.map n (l ++ (e.1, x') :: r) m) = true) :
    ∃ ν', Rebuilt μ (.map i (l ++ e :: r) m) (.map n (l ++ (e.1, x') :: r) m) ν' (n + 1) := by
  have distinct : Distinct (.map n (l ++ (e.1, x') :: r) m) := by
    have old := hv.distinct
    rw [Distinct, keys, List.map_append, List.map_cons] at old ⊢
    exact old
  have mem : e ∈ l ++ e :: r := List.mem_append_right _ List.mem_cons_self
  have key : e.1 ∈ (Value.map i (l ++ e :: r) m).children := key_mem_children mem
  refine hx.container trivial rfl ?_ (fun y mem => ?_) distinct same
  · exact val_mem_children (List.mem_append_right _ List.mem_cons_self)
  · exact children_replace (e.1, x') hv bv (Or.inr ⟨hv.child key, bv.child key⟩) (Or.inl rfl) mem

end Containers

/-! ## Rebuilding along a path -/

theorem equals_child (hv : Formed μ v) (bv : Builtin v) (y : Value) (mem : y ∈ v.children) :
    Value.equals y y = true :=
  equals_self (Formed.contains (hv.child mem)) (bv.child mem)

theorem entryEquals_self {i : Nat} {es : List (Value × Value)} {m : Option Metadata}
    (hv : Formed μ (.map i es m)) (bv : Builtin (.map i es m)) (e : Value × Value)
    (mem : e ∈ es) : Entrywise (fun x y => Value.equals x y = true) e e :=
  ⟨equals_child hv bv _ (key_mem_children mem), equals_child hv bv _ (val_mem_children mem)⟩

/-- A collection can be rebuilt around a rebuilt child.  Its hash changes just if the hash of
the child does. -/
theorem Rebuilt.exists_around (hv : Formed μ v) (bv : Builtin v) (mem : x ∈ v.children)
    (hx : Rebuilt μ x x' ν n) :
    ∃ ν' v', Rebuilt μ v v' ν' (n + 1) ∧ (v'.hash = v.hash ↔ x'.hash = x.hash) := by
  cases v with
  | seq f i xs m =>
    obtain ⟨l, r, rfl⟩ := List.append_of_mem mem
    have pairs := forall₂_replace (R := fun x y => Value.equals x y = true) (equals_child hv bv)
      hx.equals
    obtain ⟨ν', built⟩ := hx.seq hv bv ((equals_iff bv.here).mpr (Or.inr (.seq pairs)))
    refine ⟨ν', _, built, ?_⟩
    rw [Value.hash, Value.hash, hashFold_replace]
  | set i xs m =>
    obtain ⟨l, r, rfl⟩ := List.append_of_mem mem
    have pairs := forall₂_replace (R := fun x y => Value.equals x y = true) (equals_child hv bv)
      hx.equals
    obtain ⟨ν', built⟩ := hx.set hv bv
      ((equals_iff bv.here).mpr (Or.inr (.of_matching_set ⟨_, pairs, .refl _⟩)))
    refine ⟨ν', _, built, ?_⟩
    rw [Value.hash, Value.hash, hashSum_eq_sum, hashSum_eq_sum, sum_replace]
  | map i es m =>
    obtain ⟨e, mem', here⟩ := exists_entry_of_mem_children mem
    obtain ⟨l, r, rfl⟩ := List.append_of_mem mem'
    have self := entryEquals_self hv bv e mem'
    obtain ⟨k, u⟩ := e
    rcases here with rfl | rfl
    · have pairs := forall₂_replace (y := (x', u)) (entryEquals_self hv bv) ⟨hx.equals, self.2⟩
      obtain ⟨ν', built⟩ := hx.map_key hv bv
        ⟨hv.child (val_mem_children mem'), bv.child (val_mem_children mem')⟩
        ((equals_iff bv.here).mpr (Or.inr (.of_matching_map ⟨_, pairs, .refl _⟩)))
      refine ⟨ν', _, built, ?_⟩
      rw [Value.hash, Value.hash, hashEntries_eq_sum, hashEntries_eq_sum, sum_replace, hashEntry,
        hashEntry, UInt32.xor_left_inj]
    · have pairs := forall₂_replace (y := (k, x')) (entryEquals_self hv bv) ⟨self.1, hx.equals⟩
      obtain ⟨ν', built⟩ := hx.map_val hv bv
        ((equals_iff bv.here).mpr (Or.inr (.of_matching_map ⟨_, pairs, .refl _⟩)))
      refine ⟨ν', _, built, ?_⟩
      rw [Value.hash, Value.hash, hashEntries_eq_sum, hashEntries_eq_sum, sum_replace, hashEntry,
        hashEntry, UInt32.xor_right_inj]
  | object i facets xs alikes => cases bv.here
  | _ => cases mem

/-- A NaN is equivalent to nothing. -/
theorem equiv_eq_false_of_isNaN {w : Value} (hv : Formed μ v) (hw : Formed μ w)
    (nan : v.isNaN = true) : equiv v w = false := by
  cases tie : equiv v w with
  | false => rfl
  | true =>
    cases v with
    | num p =>
      cases p with
      | float p =>
        rcases (equiv_iff hv hw).mp tie with ident | alike
        · cases w with
          | num q => cases q <;> cases ident
          | _ => cases ident
        · cases alike with
          | num same =>
            obtain ⟨u, hu, -⟩ := Number.equal_iff.mp same
            have nowhere : (Number.float p).point? = none := Number.point?_eq_none_iff.mpr nan
            rw [nowhere] at hu
            cases hu
          | seq ha _ _ => cases ha
      | _ => cases nan
    | _ => cases nan

/-- A value with a NaN can be rebuilt with the same hash. -/
theorem exists_rebuilt (hv : Formed μ v) (bv : Builtin v) (below : ∀ u, μ.holds u → u.number < n)
    (nan : ¬ NaNFree v) : ∃ ν k v', Rebuilt μ v v' ν k ∧ v'.hash = v.hash := by
  induction v using children_induction with
  | step v ih =>
    rw [NaNFree, everywhere_iff, not_and_or, Bool.not_eq_false] at nan
    rcases nan with here | inside
    · exact ⟨μ, n, v, ⟨fun _ held => held, below, hv, bv,
        fun w hw => equiv_eq_false_of_isNaN hv hw here, equals_self hv.contains bv⟩, rfl⟩
    · obtain ⟨x, inside⟩ := not_forall.mp inside
      obtain ⟨mem, nan⟩ := Classical.not_imp.mp inside
      obtain ⟨ν, k, x', hx, same⟩ := ih x mem (hv.child mem) (bv.child mem) nan
      obtain ⟨ν', v', built, iff⟩ := hx.exists_around hv bv mem
      exact ⟨ν', k + 1, v', built, iff.mpr same⟩

/-! ## Uneven collections -/

theorem exists_of_not_pairwise {α : Type} {R : α → α → Prop} {xs : List α}
    (h : ¬ xs.Pairwise R) : ∃ l x r z, xs = l ++ x :: r ∧ z ∈ r ∧ ¬ R x z := by
  induction xs with
  | nil => exact absurd .nil h
  | cons x xs ih =>
    rw [List.pairwise_cons, not_and_or] at h
    rcases h with here | later
    · obtain ⟨z, here⟩ := not_forall.mp here
      obtain ⟨mem, not⟩ := Classical.not_imp.mp here
      exact ⟨[], x, xs, z, rfl, mem, not⟩
    · obtain ⟨l, y, r, z, rfl, mem, not⟩ := ih later
      exact ⟨x :: l, y, r, z, rfl, mem, not⟩

/-- Of two weights one differs from a third. -/
theorem exists_other {α : Type} {P : α → Prop} {f : α → UInt32} {xs : List α}
    (h : ¬ ∀ x ∈ xs, ∀ y ∈ xs, ¬ P x → ¬ P y → f x = f y) (weight : UInt32) :
    ∃ x ∈ xs, ¬ P x ∧ f x ≠ weight := by
  by_contra none
  refine h fun x hx y hy nx ny => ?_
  have level : ∀ z ∈ xs, ¬ P z → f z = weight := by
    intro z hz nz
    by_contra other
    exact none ⟨z, hz, nz, other⟩
  rw [level x hx nx, level y hy ny]

/-- An element that occurs twice up to content can give its place to another one with a
NaN. -/
theorem exists_rebuilt_set {i : Nat} {xs : List Value} {m : Option Metadata}
    (hv : Formed μ (.set i xs m)) (bv : Builtin (.set i xs m))
    (below : ∀ u, μ.holds u → u.number < n) (uneven : ¬ EvenHere (.set i xs m)) :
    ∃ ν k v', Rebuilt μ (.set i xs m) v' ν k ∧ v'.hash ≠ hash (.set i xs m) := by
  rw [EvenHere, not_or] at uneven
  obtain ⟨l, x, r, z, rfl, mem, again⟩ := exists_of_not_pairwise uneven.1
  obtain ⟨w, mem', nan, other⟩ := exists_other uneven.2 x.hash
  obtain ⟨ν, k, w', hw, same⟩ := exists_rebuilt (hv.child mem') (bv.child mem') below nan
  rw [Bool.not_eq_false] at again
  have sets : Value.equals (.set i (l ++ x :: r) m) (.set k (l ++ w' :: r) m) = true := by
    refine (equals_iff bv.here).mpr (Or.inr (.set ?_ (fun y hy => ?_) fun y hy => ?_))
    · rw [List.length_append, List.length_append, List.length_cons, List.length_cons]
    · rcases mem_replace (x := w') hy with rfl | old
      · exact ⟨z, List.mem_append_right _ (List.mem_cons_of_mem _ mem), again⟩
      · exact ⟨y, old, equals_child hv bv y hy⟩
    · rcases mem_replace (x := x) hy with rfl | old
      · exact ⟨w, mem', hw.equals⟩
      · exact ⟨y, old, equals_child hv bv y old⟩
  obtain ⟨ν', built⟩ := hw.set hv bv sets
  refine ⟨ν', k + 1, _, built, ?_⟩
  rw [Value.hash, Value.hash, hashSum_eq_sum, hashSum_eq_sum, Ne, sum_replace, same]
  exact other

/-- An entry that occurs twice up to content can give its place to another one with a NaN in
the key. -/
theorem exists_rebuilt_map {i : Nat} {es : List (Value × Value)} {m : Option Metadata}
    (hv : Formed μ (.map i es m)) (bv : Builtin (.map i es m))
    (below : ∀ u, μ.holds u → u.number < n) (uneven : ¬ EvenHere (.map i es m)) :
    ∃ ν k v', Rebuilt μ (.map i es m) v' ν k ∧ v'.hash ≠ hash (.map i es m) := by
  rw [EvenHere, not_or] at uneven
  obtain ⟨l, e, r, z, rfl, mem, again⟩ := exists_of_not_pairwise uneven.1
  obtain ⟨⟨w, u⟩, mem', nan, other⟩ := exists_other uneven.2 (hashEntry e)
  have key := key_mem_children (i := i) (m := m) mem'
  have val := val_mem_children (i := i) (m := m) mem'
  obtain ⟨ν, k, w', hw, same⟩ := exists_rebuilt (hv.child key) (bv.child key) below nan
  rw [Bool.not_eq_false, entryEquals_iff] at again
  have maps : Value.equals (.map i (l ++ e :: r) m) (.map k (l ++ (w', u) :: r) m) = true := by
    refine (equals_iff bv.here).mpr (Or.inr (.map ?_ (fun d hd => ?_) fun d hd => ?_))
    · rw [List.length_append, List.length_append, List.length_cons, List.length_cons]
    · rcases mem_replace (x := (w', u)) hd with rfl | old
      · exact ⟨z, List.mem_append_right _ (List.mem_cons_of_mem _ mem), again⟩
      · exact ⟨d, old, entryEquals_self hv bv d hd⟩
    · rcases mem_replace (x := e) hd with rfl | old
      · exact ⟨(w, u), mem', hw.equals, equals_child hv bv u val⟩
      · exact ⟨d, old, entryEquals_self hv bv d old⟩
  obtain ⟨ν', built⟩ := hw.map_key hv bv ⟨hv.child val, bv.child val⟩ maps
  refine ⟨ν', k + 1, _, built, ?_⟩
  rw [Value.hash, Value.hash, hashEntries_eq_sum, hashEntries_eq_sum, Ne, sum_replace]
  rw [hashEntry, same]
  exact other

/-- A value that is not even can be rebuilt with another hash. -/
theorem exists_rebuilt_uneven (hv : Formed μ v) (bv : Builtin v)
    (below : ∀ u, μ.holds u → u.number < n) (uneven : ¬ Even v) :
    ∃ ν k v', Rebuilt μ v v' ν k ∧ v'.hash ≠ v.hash := by
  induction v using children_induction with
  | step v ih =>
    rw [Even, everywhere_iff, not_and_or] at uneven
    rcases uneven with here | inside
    · cases v with
      | set i xs m => exact exists_rebuilt_set hv bv below here
      | map i es m => exact exists_rebuilt_map hv bv below here
      | _ => exact absurd trivial here
    · obtain ⟨x, inside⟩ := not_forall.mp inside
      obtain ⟨mem, uneven⟩ := Classical.not_imp.mp inside
      obtain ⟨ν, k, x', hx, other⟩ := ih x mem (hv.child mem) (bv.child mem) uneven
      obtain ⟨ν', v', built, iff⟩ := hx.exists_around hv bv mem
      exact ⟨ν', k + 1, v', built, fun same => other (iff.mp same)⟩

/-! ## When the hash of content agrees with equality -/

/-- A value has the hash of all values of equal content just if it is even. -/
theorem hash_eq_of_equals_iff (hv : Formed μ v) (bv : Builtin v) :
    Even v ↔ ∀ (ν : Memory) (w : Value), Formed ν v → Formed ν w → Builtin w →
      Value.equals v w = true → v.hash = w.hash := by
  constructor
  · intro even ν w hv' hw bw same
    exact hash_eq_of_even hv' hw bv bw even same
  · intro agree
    by_contra uneven
    obtain ⟨n, below⟩ := exists_number_bound v
    have alone : Formed (μ.restrict fun u => Part u v) v := by
      intro u part
      exact ⟨⟨(hv u part).1, part⟩, (hv u part).2⟩
    obtain ⟨ν, k, w, built, other⟩ :=
      exists_rebuilt_uneven alone bv (fun u held => below u held.2) uneven
    exact other (agree ν w (alone.mono built.grows) built.formed built.builtin
      built.equals).symm

/-- A set with one NaN alone and one in a vector, beside a set with the same content. -/
theorem hash_eq_of_equals_iff_sets :
    let v : Value := .set 0 [.float ⟨0x7ff8000000000000⟩, .vector 1 [.float ⟨0x7ff8000000000000⟩]]
      none
    let w : Value := .set 2 [.list 3 [.float ⟨0x7ff8000000000000⟩], .float ⟨0x7ff8000000000000⟩]
      none
    Even v ∧ v.hash = w.hash := by
  intro v w
  let μ : Memory := .ofList [v, .vector 1 [.float ⟨0x7ff8000000000000⟩], w,
    .list 3 [.float ⟨0x7ff8000000000000⟩]] (by decide) (by simp [v, w, list, vector])
  have distinct : v.Distinct ∧ w.Distinct := by decide +kernel
  have hv : Formed μ v := by
    refine formed_set.mpr ⟨⟨.inr (by simp [v]), distinct.1⟩, ?_⟩
    simp [float, vector, formed_num, formed_seq, μ, Memory.ofList, Memory.Direct]
  have hw : Formed μ w := by
    refine formed_set.mpr ⟨⟨.inr (by simp [w]), distinct.2⟩, ?_⟩
    simp [float, list, vector, formed_num, formed_seq, μ, Memory.ofList, Memory.Direct]
  have builtin : Builtin v ∧ Builtin w := by
    simp [Builtin, everywhere_set, everywhere_seq, everywhere_num, isObject, v, w, list, vector,
      float]
  have even : Even v := by
    refine everywhere_set.mpr ⟨Or.inl (by decide +kernel), ?_⟩
    simp [everywhere_seq, everywhere_num, EvenHere, vector, float]
  have same : equals v w = true := by decide +kernel
  exact ⟨even, (hash_eq_of_equals_iff hv builtin.1).mp even μ w hv hw builtin.2 same⟩

/-- Sets of equal content with different hashes: one holds the NaN twice and the other holds
a vector with a NaN twice. -/
theorem hash_ne_of_equals_sets :
    let v : Value := .set 0 [.float ⟨0x7ff8000000000000⟩, .float ⟨0x7ff8000000000000⟩,
      .vector 1 [.float ⟨0x7ff8000000000000⟩]] none
    let w : Value := .set 2 [.float ⟨0x7ff8000000000000⟩, .vector 3 [.float ⟨0x7ff8000000000000⟩],
      .vector 4 [.float ⟨0x7ff8000000000000⟩]] none
    (∃ μ, Formed μ v ∧ Formed μ w) ∧ Builtin v ∧ Builtin w ∧ equals v w = true ∧
      v.hash ≠ w.hash := by
  intro v w
  let μ : Memory := .ofList [v, .vector 1 [.float ⟨0x7ff8000000000000⟩], w,
    .vector 3 [.float ⟨0x7ff8000000000000⟩], .vector 4 [.float ⟨0x7ff8000000000000⟩]]
    (by decide) (by simp [v, w, vector])
  have distinct : v.Distinct ∧ w.Distinct := by decide +kernel
  have hv : Formed μ v := by
    refine formed_set.mpr ⟨⟨.inr (by simp [v]), distinct.1⟩, ?_⟩
    simp [float, vector, formed_num, formed_seq, μ, Memory.ofList, Memory.Direct]
  have hw : Formed μ w := by
    refine formed_set.mpr ⟨⟨.inr (by simp [w]), distinct.2⟩, ?_⟩
    simp [float, vector, formed_num, formed_seq, μ, Memory.ofList, Memory.Direct]
  refine ⟨⟨μ, hv, hw⟩, ?_, ?_, by decide +kernel, by decide +kernel⟩
  · simp [Builtin, everywhere_set, everywhere_seq, everywhere_num, isObject, v, vector, float]
  · simp [Builtin, everywhere_set, everywhere_seq, everywhere_num, isObject, w, vector, float]

end Rebuilt

end Value

end ValueCore
