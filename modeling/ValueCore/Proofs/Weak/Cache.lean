import Mathlib.Data.List.Nodup
import ValueCore.Proofs.Weak.Notices
import ValueCore.Weak.Cache
/-!
# Weak caches as finite maps

`get?` is what a cache shows of itself, and each operation has one equation for it.  A cache
in which every key is there once (`Distinct`) is that finite map and nothing more.

A sweep without interference removes what it has collected, since every collected entry is
still there when its turn comes (`removeCleared_eq`).  So it keeps the entries whose
references are live (`sweep_of_pending`).
-/

namespace ValueCore.Weak

/-- A reference is the same as its clones, and the same references are cleared together. -/
structure RefOps.Lawful {R : Type} (ops : RefOps R) : Prop where
  same_self : ∀ r, ops.same r r = true
  cleared_eq : ∀ {r r'}, ops.same r r' = true → ops.cleared r = ops.cleared r'

namespace Cache

variable {K R : Type} {c : Cache K R} {k l : K} {r : R} {e : K × R}

/-! ## Distinct keys and live entries -/

/-- Every key is there once. -/
def Distinct (c : Cache K R) : Prop := (c.map Prod.fst).Nodup

theorem distinct_cons : Distinct (e :: c) ↔ e.1 ∉ c.map Prod.fst ∧ c.Distinct :=
  List.nodup_cons

theorem Distinct.filter (h : c.Distinct) (p : K × R → Bool) : Distinct (c.filter p) :=
  (List.filter_sublist.map Prod.fst).nodup h

theorem key_mem (h : (k, r) ∈ c) : k ∈ c.map Prod.fst := List.mem_map.mpr ⟨_, h, rfl⟩

theorem mem_collectCleared {ops : RefOps R} :
    e ∈ c.collectCleared ops ↔ e ∈ c ∧ ops.cleared e.2 = true := by
  rw [collectCleared, List.mem_filter]

/-- The entries whose references are live. -/
def live (ops : RefOps R) (c : Cache K R) : Cache K R := c.filter fun e => !ops.cleared e.2

/-! ## Look-ups -/

variable [DecidableEq K]

theorem Distinct.drop (h : c.Distinct) : (c.drop k).Distinct := h.filter _

theorem get?_cons : get? (e :: c) k = if k = e.1 then some e.2 else get? c k := by
  obtain ⟨l, s⟩ := e
  rw [get?, List.lookup_cons]
  by_cases h : k = l
  · simp [h]
  · have apart : (k == l) = false := by simpa using h
    simp [h, apart, get?]

/-- A look-up finds the first entry with the key. -/
theorem get?_eq_find? (c : Cache K R) (k : K) :
    c.get? k = (c.find? fun e => e.1 = k).map Prod.snd := by
  induction c with
  | nil => rfl
  | cons e c ih =>
    rw [get?_cons, List.find?_cons, ih]
    by_cases here : e.1 = k
    · simp [here]
    · simp [here, Ne.symm here]

theorem mem_of_get? (h : c.get? k = some r) : (k, r) ∈ c := by
  induction c with
  | nil => cases h
  | cons e c ih =>
    rw [get?_cons] at h
    split at h
    · next here =>
      cases h
      rw [here]
      exact List.mem_cons_self
    · exact List.mem_cons_of_mem _ (ih h)

theorem get?_of_mem (h : c.Distinct) (mem : (k, r) ∈ c) : c.get? k = some r := by
  induction c with
  | nil => cases mem
  | cons e c ih =>
    rw [distinct_cons] at h
    rw [get?_cons]
    rcases List.mem_cons.mp mem with rfl | later
    · rw [if_pos rfl]
    · have other : k ≠ e.1 := by
        rintro rfl
        exact h.1 (key_mem later)
      rw [if_neg other]
      exact ih h.2 later

theorem get?_eq_some_iff (h : c.Distinct) : c.get? k = some r ↔ (k, r) ∈ c :=
  ⟨mem_of_get?, get?_of_mem h⟩

theorem get?_put : (c.put k r).get? l = if l = k then some r else c.get? l := by
  induction c with
  | nil => rw [put, get?_cons]
  | cons e c ih =>
    rw [put]
    split
    · next here =>
      rw [get?_cons, get?_cons, here]
      split
      · rfl
      · rfl
    · next other =>
      rw [get?_cons, get?_cons, ih]
      by_cases head : l = e.1
      · rw [if_pos head, if_pos head, if_neg (head ▸ other)]
      · rw [if_neg head, if_neg head]

theorem get?_drop : (c.drop k).get? l = if l = k then none else c.get? l := by
  induction c with
  | nil => simp [drop, get?]
  | cons e c ih =>
    rw [drop, List.filter_cons]
    by_cases here : e.1 = k
    · rw [if_neg (by simpa using here), get?_cons, here]
      rw [drop] at ih
      rw [ih]
      split
      · rfl
      · rfl
    · rw [if_pos (by simpa using here), get?_cons, get?_cons]
      rw [drop] at ih
      rw [ih]
      by_cases head : l = e.1
      · rw [if_pos head, if_pos head, if_neg (head ▸ here)]
      · rw [if_neg head, if_neg head]

theorem drop_of_get?_none (absent : c.get? k = none) : c.drop k = c := by
  rw [get?_eq_find?, Option.map_eq_none_iff, List.find?_eq_none] at absent
  refine List.filter_eq_self.mpr fun e mem => ?_
  simpa using absent e mem

/-! ## Entries -/

theorem keys_put (k : K) (r : R) (c : Cache K R) :
    (c.put k r).map Prod.fst =
      if k ∈ c.map Prod.fst then c.map Prod.fst else c.map Prod.fst ++ [k] := by
  induction c with
  | nil => rfl
  | cons e c ih =>
    rw [put]
    by_cases here : e.1 = k
    · simp [here]
    · rw [if_neg here, List.map_cons, ih]
      by_cases later : k ∈ c.map Prod.fst
      · simp [later]
      · simp [later, Ne.symm here]

theorem Distinct.put (h : c.Distinct) : (c.put k r).Distinct := by
  rw [Distinct, keys_put]
  split
  · exact h
  · next fresh => exact List.nodup_append.mpr ⟨h, List.nodup_singleton k, by
      rintro l mem l' mem' rfl
      exact fresh (List.mem_singleton.mp mem' ▸ mem)⟩

/-- An entry after an insertion is the new one, or an old one under another key. -/
theorem mem_put (h : c.Distinct) : e ∈ c.put k r ↔ e = (k, r) ∨ e ∈ c ∧ e.1 ≠ k := by
  obtain ⟨l, s⟩ := e
  rw [← get?_eq_some_iff h.put, get?_put, ← get?_eq_some_iff h, Prod.mk.injEq]
  by_cases here : l = k
  · simp [here, eq_comm]
  · simp [here]

theorem mem_drop : e ∈ c.drop k ↔ e ∈ c ∧ e.1 ≠ k := by
  simp [drop]

theorem length_drop (h : c.Distinct) (mem : (k, r) ∈ c) :
    (c.drop k).length + 1 = c.length := by
  induction c with
  | nil => cases mem
  | cons e c ih =>
    rw [distinct_cons] at h
    rw [drop, List.filter_cons]
    rcases List.mem_cons.mp mem with rfl | later
    · have all : (c.filter fun e => e.1 ≠ k) = c := by
        refine List.filter_eq_self.mpr fun e later => decide_eq_true ?_
        rintro rfl
        exact h.1 (key_mem later)
      rw [if_neg (by simp), all, List.length_cons]
    · have other : e.1 ≠ k := by
        rintro rfl
        exact h.1 (key_mem later)
      rw [if_pos (by simpa using other), List.length_cons, List.length_cons]
      rw [drop] at ih
      rw [ih h.2 later]

/-! ## Sweeping -/

theorem removeIfSame_of_same {ops : RefOps R} {stale : R} (held : c.get? k = some r)
    (h : ops.same r stale = true) : removeIfSame ops c k stale = (true, c.drop k) := by
  rw [removeIfSame, held]
  exact if_pos h

/-- A removal takes out its key or leaves the cache as it is. -/
theorem removeIfSame_cases (ops : RefOps R) (c : Cache K R) (k : K) (stale : R) :
    (∃ r, c.get? k = some r ∧ ops.same r stale = true ∧
      removeIfSame ops c k stale = (true, c.drop k)) ∨
    (∀ r, c.get? k = some r → ops.same r stale = false) ∧
      removeIfSame ops c k stale = (false, c) := by
  cases held : c.get? k with
  | none =>
    refine Or.inr ⟨?_, ?_⟩
    · intro r h
      cases h
    · simp only [removeIfSame, held]
  | some r =>
    cases same : ops.same r stale with
    | true => exact Or.inl ⟨r, rfl, same, removeIfSame_of_same held same⟩
    | false =>
      refine Or.inr ⟨?_, ?_⟩
      · rintro r' h
        cases h
        exact same
      · rw [removeIfSame, held]
        exact if_neg (by rw [same]; exact Bool.false_ne_true)

theorem Distinct.removeIfSame (h : c.Distinct) (ops : RefOps R) (stale : R) :
    (c.removeIfSame ops k stale).2.Distinct := by
  rcases removeIfSame_cases ops c k stale with ⟨r, -, -, done⟩ | ⟨-, done⟩
  · rw [done]
    exact h.drop
  · rw [done]
    exact h

/-- Entries that are all still there are all removed. -/
theorem removeCleared_eq {ops : RefOps R} (same_self : ∀ r, ops.same r r = true)
    {stale : List (K × R)} (hc : c.Distinct) (hs : (stale.map Prod.fst).Nodup)
    (sub : ∀ e ∈ stale, e ∈ c) :
    removeCleared ops c stale =
      (stale.length, c.filter fun e => e.1 ∉ stale.map Prod.fst) := by
  induction stale generalizing c with
  | nil => simp [removeCleared]
  | cons e stale ih =>
    rw [List.map_cons, List.nodup_cons] at hs
    have held : c.get? e.1 = some e.2 := get?_of_mem hc (sub e List.mem_cons_self)
    have sub' : ∀ e' ∈ stale, e' ∈ c.drop e.1 := by
      intro e' mem
      refine mem_drop.mpr ⟨sub e' (List.mem_cons_of_mem _ mem), fun same => hs.1 ?_⟩
      rw [← same]
      exact List.mem_map_of_mem mem
    rw [removeCleared, removeIfSame_of_same held (same_self e.2)]
    simp only [ih hc.drop hs.2 sub', Bool.toNat_true, List.length_cons, Prod.mk.injEq]
    refine ⟨Nat.add_comm _ _, ?_⟩
    rw [drop, List.filter_filter]
    refine List.filter_congr fun e' _ => ?_
    simp only [List.map_cons, List.mem_cons, not_or, Bool.decide_and]
    exact Bool.and_comm _ _

/-- The entries that are left when those with cleared references are taken out. -/
theorem filter_key_notMem_eq_live {ops : RefOps R} {stale : List (K × R)} (h : c.Distinct)
    (mem : ∀ e, e ∈ stale ↔ e ∈ c ∧ ops.cleared e.2 = true) :
    (c.filter fun e => e.1 ∉ stale.map Prod.fst) = c.live ops := by
  refine List.filter_congr fun e here => ?_
  have key : e.1 ∈ stale.map Prod.fst ↔ ops.cleared e.2 = true := by
    constructor
    · intro found
      obtain ⟨e', mem', keys⟩ := List.mem_map.mp found
      obtain ⟨there, cleared⟩ := (mem e').mp mem'
      have one : some e.2 = some e'.2 := by
        rw [← get?_of_mem h here, ← get?_of_mem h there, keys]
      rw [Option.some.inj one]
      exact cleared
    · intro cleared
      exact List.mem_map_of_mem ((mem e).mpr ⟨here, cleared⟩)
  cases cleared : ops.cleared e.2 with
  | true => simpa [cleared] using key
  | false => simpa [cleared] using key

theorem sweep_of_isEmpty {ops : RefOps R} {q : Queue} (h : q.isEmpty = true) :
    sweep ops q c = (0, q, c) := by
  rw [sweep, q.poll_of_isEmpty h]

/-- A sweep that finds a notice drains the queue and keeps the live entries. -/
theorem sweep_of_pending {ops : RefOps R} {q : Queue} (same_self : ∀ r, ops.same r r = true)
    (hc : c.Distinct) (h : q.isEmpty = false) :
    sweep ops q c = (c.countP fun e => ops.cleared e.2, {}, c.live ops) := by
  obtain ⟨n, rest, -, polled⟩ := q.poll_of_pending h
  rw [sweep, polled]
  have removed : removeCleared ops c (c.collectCleared ops) = _ :=
    removeCleared_eq same_self hc (hc.filter _) fun e mem => (mem_collectCleared.mp mem).1
  rw [filter_key_notMem_eq_live hc fun e => mem_collectCleared] at removed
  simp only [removed, Queue.drain_eq]
  rw [collectCleared, List.countP_eq_length_filter]

end Cache

end ValueCore.Weak
