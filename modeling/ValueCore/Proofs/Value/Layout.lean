import ValueCore.Proofs.Value.Memory
/-!
# Layouts

A collection has its elements, keys and values in the spots of its allocation (`at?`).  A
`Layout` of a memory tells which spots are one place.  It may be any equivalence relation on
spots under which one place holds one value and the keys of a table are in different places.
The smallest one is `Layout.own`, in which only clones share places.

Of two values alone, `Places.Sound` says that no place of theirs holds different values.
-/

namespace ValueCore

/-- The keys of a map or the members of a set are in the spots of the allocation. -/
def Allocation.IsTable : Allocation → Prop
  | .map _ | .set _ => True
  | _ => False

namespace Value

/-! ## What is in a spot -/

/-- The elements of a sequence or set, or the keys of a map. -/
def items : Value → List Value
  | .seq _ _ xs _ => xs
  | .map _ es _ => es.map Prod.fst
  | .set _ xs _ => xs
  | _ => []

/-- The values under the keys of a map. -/
def vals : Value → List Value
  | .map _ es _ => es.map Prod.snd
  | _ => []

/-- What a collection has in a spot. -/
def at? (v : Value) : Spot → Option Value
  | .named _ => none
  | .inside home i => if v.home? = some home then v.items[i]? else none
  | .under home i => if v.home? = some home then v.vals[i]? else none

theorem allocation?_of_home {v : Value} {home : Allocation} (h : v.home? = some home) :
    v.allocation? = some home := by
  cases v <;> first | exact h | cases h

theorem at?_inside {v : Value} {home : Allocation} (h : v.home? = some home) (i : Nat) :
    v.at? (.inside home i) = v.items[i]? := by
  rw [at?, if_pos h]

theorem at?_under {v : Value} {home : Allocation} (h : v.home? = some home) (i : Nat) :
    v.at? (.under home i) = v.vals[i]? := by
  rw [at?, if_pos h]

theorem Kin.at?_eq {u v : Value} (h : Kin u v) (s : Spot) : u.at? s = v.at? s := by
  cases h <;> cases s <;> rfl

/-- What has something in one spot is in one allocation. -/
theorem exists_home_of_at? {u v x y : Value} {s : Spot} (hx : u.at? s = some x)
    (hy : v.at? s = some y) : ∃ home, u.home? = some home ∧ v.home? = some home := by
  cases s with
  | named n => cases hx
  | inside home i =>
    simp only [at?, Option.ite_none_right_eq_some] at hx hy
    exact ⟨home, hx.1, hy.1⟩
  | under home i =>
    simp only [at?, Option.ite_none_right_eq_some] at hx hy
    exact ⟨home, hx.1, hy.1⟩

/-- What is in a spot depends on the allocation alone. -/
theorem eq_of_at? {μ : Memory} {u v x y : Value} {s : Spot} (hu : μ.holds u) (hv : μ.holds v)
    (hx : u.at? s = some x) (hy : v.at? s = some y) : x = y := by
  obtain ⟨home, here, there⟩ := exists_home_of_at? hx hy
  have kin := μ.shared hu hv (allocation?_of_home here) (allocation?_of_home there)
  rw [kin.at?_eq, hy] at hx
  exact (Option.some.inj hx).symm

/-- Values that meet in a place are in spots. -/
theorem Places.exists_of_meet {same : Places} {s t : Option Spot} (h : same.meet s t = true) :
    ∃ s', s = some s' ∧ ∃ t', t = some t' ∧ same s' t' = true := by
  cases s with
  | none => cases h
  | some s =>
    cases t with
    | none => cases h
    | some t => exact ⟨s, rfl, t, rfl, h⟩

/-- A child of a value in the spot where the value has it, if it is in one. -/
def HasChild (v : Value) (x : Placed) : Prop :=
  x.2 ∈ v.children ∧ ∀ s, x.1 = some s → v.at? s = some x.2

/-- Places in which the parts of two values have the same. -/
structure Places.Sound (same : Places) (a b : Value) : Prop where
  /-- One place holds one value. -/
  agree : ∀ {u v x y : Value} {s t : Spot}, Part u a → Part v b → u.at? s = some x →
    v.at? t = some y → same s t = true → x = y

theorem Places.apart_sound (a b : Value) : Places.apart.Sound a b where
  agree _ _ _ _ h := by cases h

theorem Places.Sound.child {same : Places} {a b x y : Value} (sound : same.Sound a b)
    (hx : x ∈ a.children) (hy : y ∈ b.children) : same.Sound x y where
  agree hu hv := sound.agree (hu.trans (.inside hx .self)) (hv.trans (.inside hy .self))

theorem Places.Sound.eq_of_meet {same : Places} {a b : Value} {x y : Placed}
    (sound : same.Sound a b) (hx : a.HasChild x) (hy : b.HasChild y)
    (h : same.meet x.1 y.1 = true) : x.2 = y.2 := by
  obtain ⟨s, hs, t, ht, one⟩ := Places.exists_of_meet h
  exact sound.agree .self .self (hx.2 s hs) (hy.2 t ht) one

/-- Some spots are one place, and every other spot is a place of its own. -/
def Places.merging (spots : List Spot) : Places := fun s t =>
  s == t || (spots.contains s && spots.contains t)

theorem Places.merging_iff {spots : List Spot} {s t : Spot} :
    Places.merging spots s t = true ↔ s = t ∨ s ∈ spots ∧ t ∈ spots := by
  simp [Places.merging]

end Value

open Value

/-- A value is what lies in its spot, if it lies in one. -/
def Memory.Lies (μ : Memory) (x : Placed) : Prop :=
  ∀ s, x.1 = some s → ∃ v, μ.holds v ∧ v.at? s = some x.2

/-! ## Layouts -/

/-- Which spots of the values of a memory are one place. -/
structure Layout (μ : Memory) where
  /-- Whether two spots are one place. -/
  same : Places
  refl : ∀ s : Spot, same s s = true
  symm : ∀ {s t : Spot}, same s t = true → same t s = true
  trans : ∀ {s t r : Spot}, same s t = true → same t r = true → same s r = true
  /-- One place holds one value. -/
  agree : ∀ {u v x y : Value} {s t : Spot}, μ.holds u → μ.holds v → u.at? s = some x →
    v.at? t = some y → same s t = true → x = y
  /-- The keys of a table are in different places. -/
  once : ∀ {home : Allocation} {i j : Nat}, home.IsTable →
    same (.inside home i) (.inside home j) = true → i = j

namespace Layout

/-- The layout in which only clones share places. -/
def own (μ : Memory) : Layout μ where
  same := Places.own
  refl s := beq_self_eq_true s
  symm h := beq_iff_eq.mpr (beq_iff_eq.mp h).symm
  trans h h' := beq_iff_eq.mpr ((beq_iff_eq.mp h).trans (beq_iff_eq.mp h'))
  agree hu hv hx hy h := by
    cases beq_iff_eq.mp h
    exact eq_of_at? hu hv hx hy
  once _ h := by
    cases beq_iff_eq.mp h
    rfl

variable {μ : Memory} (L : Layout μ)

/-- The layout in which some spots with one value are one place, no two of them keys of one
table.  Elsewhere only clones share places. -/
def merging (μ : Memory) (spots : List Spot) (x : Value)
    (lies : ∀ s ∈ spots, μ.Lies (some s, x))
    (once : ∀ {home : Allocation} {i j : Nat}, home.IsTable → .inside home i ∈ spots →
      .inside home j ∈ spots → i = j) : Layout μ where
  same := Places.merging spots
  refl s := Places.merging_iff.mpr (.inl rfl)
  symm h := Places.merging_iff.mpr ((Places.merging_iff.mp h).imp Eq.symm And.symm)
  trans h h' := by
    rcases Places.merging_iff.mp h with rfl | here
    · exact h'
    rcases Places.merging_iff.mp h' with rfl | there
    · exact h
    · exact Places.merging_iff.mpr (.inr ⟨here.1, there.2⟩)
  agree {u v x' y s t} hu hv hx hy h := by
    rcases Places.merging_iff.mp h with rfl | here
    · exact eq_of_at? hu hv hx hy
    · obtain ⟨w, hw, atw⟩ := lies s here.1 s rfl
      obtain ⟨w', hw', atw'⟩ := lies t here.2 t rfl
      exact (eq_of_at? hu hw hx atw).trans (eq_of_at? hw' hv atw' hy)
  once {home i j} table h := by
    rcases Places.merging_iff.mp h with same | here
    · cases same
      rfl
    · exact once table here.1 here.2

theorem sound {a b : Value} (ha : μ.Contains a) (hb : μ.Contains b) : L.same.Sound a b where
  agree hu hv := L.agree (ha _ hu) (hb _ hv)

variable {L} {x y : Placed} {s t r : Option Spot}

theorem meet_symm (h : L.same.meet s t = true) : L.same.meet t s = true := by
  cases s <;> cases t <;> first | exact L.symm h | cases h

theorem meet_trans (h : L.same.meet s t = true) (h' : L.same.meet t r = true) :
    L.same.meet s r = true := by
  cases s <;> cases t <;> cases r <;> first | exact L.trans h h' | cases h | cases h'

theorem eq_of_meet (hx : μ.Lies x) (hy : μ.Lies y) (h : L.same.meet x.1 y.1 = true) :
    x.2 = y.2 := by
  obtain ⟨s, hs, t, ht, one⟩ := Places.exists_of_meet h
  obtain ⟨u, hu, atu⟩ := hx s hs
  obtain ⟨v, hv, atv⟩ := hy t ht
  exact L.agree hu hv atu atv one

end Layout

namespace Value

/-! ## Identity of values as they lie -/

section IdenticalAt

variable {μ : Memory} {L : Layout μ} {a b c : Value} {s t u : Option Spot}

theorem identicalAt_symm (ha : μ.holds a) (hb : μ.holds b)
    (h : identicalAt (L.same.meet s t) a b = true) :
    identicalAt (L.same.meet t s) b a = true := by
  rw [identicalAt, Bool.or_eq_true] at h ⊢
  exact h.imp Layout.meet_symm (μ.identical_symm ha hb)

/-- Values that are identical as they lie are twins. -/
theorem twin_of_identicalAt (ha : μ.holds a) (hb : μ.holds b)
    (place : L.same.meet s t = true → a = b) (h : identicalAt (L.same.meet s t) a b = true) :
    Twin a b := by
  rcases Bool.or_eq_true_iff.mp h with here | ident
  · rw [place here]
    exact .same
  · exact μ.twin ha hb ident

theorem identicalAt_trans (ha : μ.holds a) (hb : μ.holds b)
    (st : L.same.meet s t = true → a = b) (tu : L.same.meet t u = true → b = c)
    (h : identicalAt (L.same.meet s t) a b = true)
    (h' : identicalAt (L.same.meet t u) b c = true) :
    identicalAt (L.same.meet s u) a c = true := by
  rw [identicalAt, Bool.or_eq_true] at h h' ⊢
  rcases h with here | ident
  · rcases h' with here' | ident'
    · exact Or.inl (Layout.meet_trans here here')
    · rw [st here]
      exact Or.inr ident'
  · refine Or.inr ?_
    rcases h' with here' | ident'
    · rwa [← tu here']
    · rwa [(μ.twin ha hb ident).identical_left]

end IdenticalAt

/-! ## Children where they lie -/

section Placed

variable {home : Option Allocation} {i : Nat} {xs : List Value} {es : List (Value × Value)}

theorem map_placed {β : Type} (f : Value → β) :
    (placed home i xs).map (fun x => f x.2) = xs.map f := by
  induction xs generalizing i with
  | nil => rfl
  | cons x xs ih => rw [placed, List.map_cons, ih, List.map_cons]

theorem map_snd_placed : (placed home i xs).map Prod.snd = xs :=
  (map_placed id).trans xs.map_id

theorem exists_placed {x : Value} (home : Option Allocation) (i : Nat) (mem : x ∈ xs) :
    ∃ p ∈ placed home i xs, p.2 = x := by
  rw [← @map_snd_placed home i xs] at mem
  exact List.mem_map.mp mem

theorem length_placed : (placed home i xs).length = xs.length := by
  rw [← List.length_map Prod.snd, map_snd_placed]

theorem map_fst_placedEntries :
    (placedEntries home i es).map Prod.fst = placed home i (es.map Prod.fst) := by
  induction es generalizing i with
  | nil => rfl
  | cons e es ih => rw [placedEntries, List.map_cons, ih, List.map_cons, placed]

theorem map_placedEntries {β : Type} (f : Value × Value → β) :
    (placedEntries home i es).map (fun e => f (e.1.2, e.2.2)) = es.map f := by
  induction es generalizing i with
  | nil => rfl
  | cons e es ih => rw [placedEntries, List.map_cons, ih, List.map_cons]

theorem map_values_placedEntries :
    (placedEntries home i es).map (Prod.map Prod.snd Prod.snd) = es :=
  (map_placedEntries id).trans es.map_id

theorem exists_placedEntries {e : Value × Value} (home : Option Allocation) (i : Nat)
    (mem : e ∈ es) : ∃ p ∈ placedEntries home i es, p.map Prod.snd Prod.snd = e := by
  rw [← @map_values_placedEntries home i es] at mem
  exact List.mem_map.mp mem

theorem length_placedEntries : (placedEntries home i es).length = es.length := by
  rw [← List.length_map (Prod.map Prod.snd Prod.snd), map_values_placedEntries]

theorem mem_placed {x : Placed} (mem : x ∈ placed home i xs) :
    ∃ k, x.1 = home.map (.inside · (i + k)) ∧ xs[k]? = some x.2 := by
  induction xs generalizing i with
  | nil => cases mem
  | cons y xs ih =>
    rcases List.mem_cons.mp mem with rfl | later
    · exact ⟨0, rfl, rfl⟩
    · obtain ⟨k, here, found⟩ := ih later
      refine ⟨k + 1, ?_, found⟩
      rw [here, Nat.add_right_comm, Nat.add_assoc]

theorem value_mem_of_mem_placed {x : Placed} (mem : x ∈ placed home i xs) : x.2 ∈ xs := by
  obtain ⟨k, -, found⟩ := mem_placed mem
  exact List.mem_of_getElem? found

theorem mem_placedEntries {e : Placed × Placed} (mem : e ∈ placedEntries home i es) :
    ∃ k d, e = ((home.map (.inside · (i + k)), d.1), (home.map (.under · (i + k)), d.2)) ∧
      es[k]? = some d := by
  induction es generalizing i with
  | nil => cases mem
  | cons d es ih =>
    rcases List.mem_cons.mp mem with rfl | later
    · exact ⟨0, d, rfl, rfl⟩
    · obtain ⟨k, d', rfl, found⟩ := ih later
      refine ⟨k + 1, d', ?_, found⟩
      rw [Nat.add_right_comm, Nat.add_assoc]

/-- Keys in different places, of which no two have a relation, keep apart where they lie. -/
theorem pairwise_placed {R : Value → Value → Prop} {S : Placed → Placed → Prop}
    (h : xs.Pairwise R)
    (imp : ∀ {j k x y}, j < k → R x y →
      S (home.map (.inside · j), x) (home.map (.inside · k), y)) :
    (placed home i xs).Pairwise S := by
  induction h generalizing i with
  | nil => exact .nil
  | cons first _ ih =>
    refine .cons (fun y mem => ?_) ih
    obtain ⟨k, here, found⟩ := mem_placed mem
    obtain ⟨t, y⟩ := y
    cases here
    exact imp (by omega) (first y (List.mem_of_getElem? found))

end Placed

section HasChild

variable {μ : Memory} {v : Value} {x : Placed} {xs : List Value}

theorem hasChild_of_elements (h : v.elements? = some xs) (mem : x ∈ placed v.home? 0 xs) :
    v.HasChild x := by
  obtain ⟨k, here, found⟩ := mem_placed mem
  rw [Nat.zero_add] at here
  refine ⟨by rw [children_of_elements h]; exact List.mem_of_getElem? found, fun s hs => ?_⟩
  rw [here] at hs
  cases v with
  | seq f i items m =>
    cases h
    cases hs
    exact (at?_inside rfl k).trans found
  | object i facets items alikes => cases hs
  | _ => cases h

theorem hasChild_of_members {i : Nat} {m : Option Metadata}
    (mem : x ∈ placed (some (.set i)) 0 xs) : (Value.set i xs m).HasChild x := by
  obtain ⟨k, here, found⟩ := mem_placed mem
  rw [Nat.zero_add] at here
  refine ⟨List.mem_of_getElem? found, fun s hs => ?_⟩
  rw [here] at hs
  cases hs
  exact (at?_inside rfl k).trans found

theorem hasChild_of_entries {i : Nat} {es : List (Value × Value)} {m : Option Metadata}
    {e : Placed × Placed} (mem : e ∈ placedEntries (some (.map i)) 0 es) :
    (Value.map i es m).HasChild e.1 ∧ (Value.map i es m).HasChild e.2 := by
  obtain ⟨k, d, rfl, found⟩ := mem_placedEntries mem
  rw [Nat.zero_add]
  have mem' := List.mem_of_getElem? found
  refine ⟨⟨key_mem_children mem', fun s hs => ?_⟩, val_mem_children mem', fun s hs => ?_⟩
  · cases hs
    rw [at?_inside rfl, items, List.getElem?_map, found, Option.map_some]
  · cases hs
    rw [at?_under rfl, vals, List.getElem?_map, found, Option.map_some]

theorem HasChild.lies (h : v.HasChild x) (held : μ.holds v) : μ.Lies x :=
  fun s hs => ⟨v, held, h.2 s hs⟩

end HasChild

end Value

end ValueCore
