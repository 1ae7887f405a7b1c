import Mathlib.Algebra.BigOperators.Group.Finset.Basic
import ValueCore.Proofs.Weak.Cache
/-!
# Sweeps amid interference

A sweep is not one step.  It polls, polls on until the queue is empty, looks through the
cache, and takes out entries one at a time, while others use the same queue and cache and
referents go (`Phase.advance`).  An `Execution` is a run of one sweep in which anything else
may happen between two of its steps: entries come, change and go, and notices too.  Only a
reference that is cleared stays cleared (`Interference`).  In particular the steps of other
sweeps are such interference (`interference_advance`).

The scan does not see the cache at one moment either.  It comes to each key at the key's
*turn*, and what it sees of the key is what the cache has for it then.  Keys may have turns of
their own, or a turn in common where the scan holds a lock on a part of the cache.

The laws of a sweep (`Execution.Laws`) say which entries it takes out.  They are read off the
history of an execution, which a `Record` keeps: the entries that were found cleared, those of
them that were tried, and how many entries are gone.  Each step of the sweep extends the record
as its phase says (`Execution.stage`), and all else leaves it alone.
-/

namespace ValueCore.Weak

variable {K R : Type} [DecidableEq K] {n : Nat} {turn : K → Fin n}

/-! ## Steps of a sweep -/

/-- What a sweep works on, and what it may ask about references. -/
structure Scene (K R : Type) where
  /-- The pending notices. -/
  queue : Queue
  /-- The cache. -/
  cache : Cache K R
  /-- The answers that references give now. -/
  ops : RefOps R
  distinct : cache.Distinct
  lawful : ops.Lawful

/-- Where a sweep stands. -/
inductive Phase (K R : Type) where
  /-- Nothing was polled yet. -/
  | poll
  /-- There was a notice. -/
  | drain
  /-- The keys with this turn are next, and these entries were found cleared. -/
  | scan (i : Nat) (found : List (K × R))
  /-- These entries are left to be tried, and so many are gone. -/
  | remove (left : List (K × R)) (removed : Nat)
  /-- The answer. -/
  | done (removed : Nat)

/-- The next step of a sweep. -/
def Phase.advance (turn : K → Fin n) (p : Phase K R) (s : Scene K R) :
    Phase K R × Scene K R :=
  match p with
  | .poll =>
    match s.queue.poll with
    | (none, queue) => (.done 0, { s with queue })
    | (some _, queue) => (.drain, { s with queue })
  | .drain =>
    match s.queue.poll with
    | (none, queue) => (.scan 0 [], { s with queue })
    | (some _, queue) => (.drain, { s with queue })
  | .scan i found =>
    if i < n then
      let part := s.cache.filter fun e => (turn e.1).val = i
      (.scan (i + 1) (found ++ Cache.collectCleared s.ops part), s)
    else (.remove found 0, s)
  | .remove [] removed => (.done removed, s)
  | .remove (e :: left) removed =>
    let step := s.cache.removeIfSame s.ops e.1 e.2
    (.remove left (removed + step.1.toNat),
      { s with cache := step.2, distinct := s.distinct.removeIfSame s.ops e.2 })
  | .done removed => (.done removed, s)

/-- Whatever happens to queue and cache, a reference that is cleared stays cleared. -/
def Interference (s s' : Scene K R) : Prop :=
  ∀ r, s.ops.cleared r = true → s'.ops.cleared r = true

section Advance

variable {p : Phase K R} {s : Scene K R}

theorem advance_of_isEmpty (h : s.queue.isEmpty = true) :
    Phase.poll.advance turn s = (.done 0, s) ∧ Phase.drain.advance turn s = (.scan 0 [], s) := by
  simp only [Phase.advance, Queue.poll_of_isEmpty h, and_self]

theorem advance_of_pending (h : s.queue.isEmpty = false) :
    Phase.poll.advance turn s = (.drain, { s with queue := s.queue.poll.2 }) ∧
      Phase.drain.advance turn s = (.drain, { s with queue := s.queue.poll.2 }) := by
  obtain ⟨notice, rest, -, polled⟩ := Queue.poll_of_pending h
  simp only [Phase.advance, polled, and_self]

/-- A step that tries no key takes at most a notice. -/
theorem scene_advance (turn : K → Fin n) (p : Phase K R) (s : Scene K R) :
    (∃ queue, (p.advance turn s).2 = { s with queue }) ∨
      ∃ e left removed, p = .remove (e :: left) removed := by
  cases p with
  | poll =>
    refine Or.inl ⟨s.queue.poll.2, ?_⟩
    simp only [Phase.advance]
    split <;> simp [*]
  | drain =>
    refine Or.inl ⟨s.queue.poll.2, ?_⟩
    simp only [Phase.advance]
    split <;> simp [*]
  | scan i found =>
    refine Or.inl ⟨s.queue, ?_⟩
    simp only [Phase.advance]
    split <;> rfl
  | remove left removed =>
    cases left with
    | nil => exact Or.inl ⟨s.queue, rfl⟩
    | cons e left => exact Or.inr ⟨e, left, removed, rfl⟩
  | done removed => exact Or.inl ⟨s.queue, rfl⟩

theorem ops_advance : (p.advance turn s).2.ops = s.ops := by
  rcases scene_advance turn p s with ⟨queue, step⟩ | ⟨e, left, removed, rfl⟩
  · rw [step]
  · rfl

/-- A step of another sweep is interference. -/
theorem interference_advance : Interference s (p.advance turn s).2 := by
  intro r cleared
  rw [ops_advance]
  exact cleared

theorem advance_scan_of_lt {i : Nat} {found : List (K × R)} (h : i < n) :
    (Phase.scan i found).advance turn s =
      (.scan (i + 1) (found ++
        Cache.collectCleared s.ops (s.cache.filter fun e => (turn e.1).val = i)), s) := by
  simp only [Phase.advance, if_pos h]

theorem advance_scan_of_le {i : Nat} {found : List (K × R)} (h : n ≤ i) :
    (Phase.scan i found).advance turn s = (.remove found 0, s) := by
  simp only [Phase.advance, if_neg (Nat.not_lt.mpr h)]

/-- A key that is tried is taken out if it has the reference that was found, and all stays as
it is if not. -/
theorem advance_remove (turn : K → Fin n) (s : Scene K R) (k : K) (r : R)
    (left : List (K × R)) (removed : Nat) :
    (∃ r', s.cache.get? k = some r' ∧ s.ops.same r' r = true ∧
      (Phase.remove ((k, r) :: left) removed).advance turn s = (.remove left (removed + 1),
        { s with cache := s.cache.drop k, distinct := s.distinct.drop })) ∨
    (∀ r', s.cache.get? k = some r' → s.ops.same r' r = false) ∧
      (Phase.remove ((k, r) :: left) removed).advance turn s = (.remove left removed, s) := by
  rcases s.cache.removeIfSame_cases s.ops k r with ⟨r', held, same, step⟩ | ⟨other, step⟩
  · refine Or.inl ⟨r', held, same, ?_⟩
    simp only [Phase.advance, step, Bool.toNat_true]
  · refine Or.inr ⟨other, ?_⟩
    simp only [Phase.advance, step, Bool.toNat_false, Nat.add_zero]

/-- All steps but those that try a key leave the cache alone. -/
theorem cache_advance (h : ∀ e left removed, p ≠ .remove (e :: left) removed) :
    (p.advance turn s).2.cache = s.cache := by
  rcases scene_advance turn p s with ⟨queue, step⟩ | ⟨e, left, removed, tries⟩
  · rw [step]
  · exact absurd tries (h e left removed)

end Advance

/-! ## Executions -/

/-- A run of one sweep among others: at each time either the sweep takes its next step or
something else happens. -/
structure Execution (turn : K → Fin n) (R : Type) where
  /-- Where the sweep stands. -/
  phase : Nat → Phase K R
  /-- What is there. -/
  scene : Nat → Scene K R
  /-- Whether the next step is the sweep's. -/
  own : Nat → Bool
  start : phase 0 = .poll
  own_step : ∀ t, own t = true →
    (phase (t + 1), scene (t + 1)) = (phase t).advance turn (scene t)
  other_step : ∀ t, own t = false →
    phase (t + 1) = phase t ∧ Interference (scene t) (scene (t + 1))

namespace Execution

variable (x : Execution turn R) (t u : Nat) (k l : K) (r : R)

/-- The scan comes to a key. -/
def Looks : Prop := x.own t = true ∧ ∃ found, x.phase t = .scan (turn k) found

/-- The scan comes to a key and finds a cleared reference. -/
def Scans : Prop :=
  x.Looks t k ∧ (x.scene t).cache.get? k = some r ∧ (x.scene t).ops.cleared r = true

/-- The sweep tries a key for which the scan found a reference. -/
def Tries : Prop :=
  x.own t = true ∧ ∃ left removed, x.phase t = .remove ((k, r) :: left) removed

/-- The sweep takes a key out of the cache. -/
def Removes : Prop :=
  x.own t = true ∧ (x.scene t).cache.get? k ≠ none ∧ (x.scene (t + 1)).cache.get? k = none

/-- How many entries the cache lost by steps of the sweep. -/
def taken : Nat :=
  ∑ u ∈ Finset.range t, if x.own u = true then
    (x.scene u).cache.length - (x.scene (u + 1)).cache.length else 0

/-- The laws of a sweep amid interference. -/
structure Laws : Prop where
  /-- If the first poll finds no notice, the answer is `0` and nothing changes. -/
  idle : ∀ t, x.own t = true → x.phase t = .poll → (x.scene t).queue.isEmpty = true →
    ∀ u ≥ t, x.phase (u + 1) = .done 0 ∧ (x.own u = true → x.scene (u + 1) = x.scene u)
  /-- If it finds one, polls follow until one of them finds none. -/
  drains : ∀ t, x.own t = true → x.phase t = .poll → (x.scene t).queue.isEmpty = false →
    ∀ u > t, x.phase u = .drain ∨
      ∃ d, t < d ∧ d < u ∧ x.own d = true ∧ x.phase d = .drain ∧
        (x.scene d).queue.isEmpty = true
  /-- Every poll before that takes a notice and leaves the cache as it is. -/
  polls : ∀ t, x.own t = true → x.phase t = .poll ∨ x.phase t = .drain →
    (x.scene (t + 1)).queue = (x.scene t).queue.poll.2 ∧
      (x.scene (t + 1)).cache = (x.scene t).cache
  /-- The scan comes to every key once, and before the first removal. -/
  looks : ∀ t left removed, x.phase t = .remove left removed →
    ∀ k, ∃! u, u < t ∧ x.Looks u k
  /-- A key is removed if the scan found a cleared reference for it and it has the same
  reference when it is tried, and only then. -/
  removes_iff : ∀ t k, x.Removes t k ↔ ∃ r r', x.Tries t k r ∧ (∃ u < t, x.Scans u k r) ∧
    (x.scene t).cache.get? k = some r' ∧ (x.scene t).ops.same r' r = true
  /-- Every key for which the scan found a cleared reference is tried once. -/
  tries : ∀ t removed k r, x.phase t = .done removed → (∃ u < t, x.Scans u k r) →
    ∃! u, u < t ∧ x.Tries u k r
  /-- The sweep changes nothing else in the cache. -/
  keeps : ∀ t k, x.own t = true → ¬ x.Removes t k →
    (x.scene (t + 1)).cache.get? k = (x.scene t).cache.get? k
  /-- No live reference is removed. -/
  cleared : ∀ t k, x.Removes t k →
    ∃ r, (x.scene t).cache.get? k = some r ∧ (x.scene t).ops.cleared r = true
  /-- The answer is the number of entries that the sweep took out. -/
  counts : ∀ t removed, x.phase t = .done removed → removed = x.taken t

/-! ## One step -/

section Step

variable {x t u k l r}

theorem phase_succ (h : x.own t = true) :
    x.phase (t + 1) = ((x.phase t).advance turn (x.scene t)).1 :=
  congrArg Prod.fst (x.own_step t h)

theorem scene_succ (h : x.own t = true) :
    x.scene (t + 1) = ((x.phase t).advance turn (x.scene t)).2 :=
  congrArg Prod.snd (x.own_step t h)

theorem interference_succ (t : Nat) : Interference (x.scene t) (x.scene (t + 1)) := by
  cases own : x.own t with
  | true =>
    rw [scene_succ own]
    exact interference_advance
  | false => exact (x.other_step t own).2

/-- Once cleared, a reference is cleared from then on. -/
theorem cleared_of_le (h : (x.scene u).ops.cleared r = true) (le : u ≤ t) :
    (x.scene t).ops.cleared r = true := by
  induction t, le using Nat.le_induction with
  | base => exact h
  | succ t _ ih => exact interference_succ t r ih

theorem Tries.inj {r' : R} (h : x.Tries t k r) (h' : x.Tries t l r') : k = l ∧ r = r' := by
  obtain ⟨-, left, removed, phase⟩ := h
  obtain ⟨-, left', removed', phase'⟩ := h'
  rw [phase] at phase'
  cases phase'
  exact ⟨rfl, rfl⟩

theorem cache_succ_of_phase (own : x.own t = true)
    (h : ∀ e left removed, x.phase t ≠ .remove (e :: left) removed) :
    (x.scene (t + 1)).cache = (x.scene t).cache := by
  rw [scene_succ own]
  exact cache_advance h

/-- A step of the sweep removes the key that it tries, if the key has the reference that the
scan found, and changes nothing in the cache if not. -/
theorem cache_succ (own : x.own t = true) :
    (∃ k r r', x.Tries t k r ∧ (x.scene t).cache.get? k = some r' ∧
      (x.scene t).ops.same r' r = true ∧
      (x.scene (t + 1)).cache = (x.scene t).cache.drop k) ∨
    (∀ k r r', x.Tries t k r → (x.scene t).cache.get? k = some r' →
      (x.scene t).ops.same r' r = false) ∧
      (x.scene (t + 1)).cache = (x.scene t).cache := by
  by_cases trying : ∃ k r, x.Tries t k r
  · obtain ⟨k, r, tried⟩ := trying
    obtain ⟨-, left, removed, phase⟩ := id tried
    have scene := scene_succ own
    rw [phase] at scene
    rcases advance_remove turn (x.scene t) k r left removed with
      ⟨r', held, same, step⟩ | ⟨other, step⟩
    · exact Or.inl ⟨k, r, r', tried, held, same, by rw [scene, step]⟩
    · refine Or.inr ⟨?_, by rw [scene, step]⟩
      intro l s r' tried' held
      obtain ⟨rfl, rfl⟩ := tried.inj tried'
      exact other r' held
  · refine Or.inr ⟨fun k r r' tried => absurd ⟨k, r, tried⟩ trying, ?_⟩
    refine cache_succ_of_phase own fun e left removed phase => ?_
    exact trying ⟨e.1, e.2, own, left, removed, phase⟩

/-- What is removed is what is tried and unchanged. -/
theorem removes_iff_tries : x.Removes t k ↔ ∃ r r', x.Tries t k r ∧
    (x.scene t).cache.get? k = some r' ∧ (x.scene t).ops.same r' r = true := by
  constructor
  · rintro ⟨own, there, gone⟩
    rcases cache_succ own with ⟨l, r, r', tried, held, same, dropped⟩ | ⟨-, kept⟩
    · rw [dropped, Cache.get?_drop] at gone
      split at gone
      · next here =>
        subst here
        exact ⟨r, r', tried, held, same⟩
      · exact absurd gone there
    · rw [kept] at gone
      exact absurd gone there
  · rintro ⟨r, r', tried, held, same⟩
    refine ⟨tried.1, by simp [held], ?_⟩
    rcases cache_succ tried.1 with ⟨l, s, s', tried', -, -, dropped⟩ | ⟨other, -⟩
    · rw [dropped, Cache.get?_drop, if_pos (tried.inj tried').1]
    · rw [other k r r' tried held] at same
      cases same

theorem get?_succ (h : x.own t = true) (stays : ¬ x.Removes t k) :
    (x.scene (t + 1)).cache.get? k = (x.scene t).cache.get? k := by
  rcases cache_succ h with ⟨l, r, r', tried, held, same, dropped⟩ | ⟨-, kept⟩
  · rw [dropped, Cache.get?_drop]
    refine if_neg ?_
    rintro rfl
    exact stays (removes_iff_tries.mpr ⟨r, r', tried, held, same⟩)
  · rw [kept]

theorem taken_succ_of_other (h : x.own t = false) : x.taken (t + 1) = x.taken t := by
  rw [taken, Finset.sum_range_succ, if_neg (by rw [h]; exact Bool.false_ne_true), Nat.add_zero,
    taken]

theorem taken_succ_of_kept (h : (x.scene (t + 1)).cache = (x.scene t).cache) :
    x.taken (t + 1) = x.taken t := by
  rw [taken, Finset.sum_range_succ, h, Nat.sub_self, ite_self, Nat.add_zero, taken]

theorem taken_succ_of_drop (own : x.own t = true) (held : (x.scene t).cache.get? k = some r)
    (h : (x.scene (t + 1)).cache = (x.scene t).cache.drop k) :
    x.taken (t + 1) = x.taken t + 1 := by
  have length := Cache.length_drop (x.scene t).distinct (Cache.mem_of_get? held)
  rw [taken, Finset.sum_range_succ, if_pos own, h, taken]
  omega

end Step

/-! ## The history of an execution -/

/-- What happened before a time: the keys that the scan came to, the entries found cleared,
those of them that were tried, and the number of entries taken out. -/
structure Record (past : K → Prop) (found tried : List (K × R)) (removed : Nat) : Prop where
  past_iff : ∀ k, past k ↔ ∃ u < t, x.Looks u k
  found_iff : ∀ k r, (k, r) ∈ found ↔ ∃ u < t, x.Scans u k r
  tried_iff : ∀ k r, (k, r) ∈ tried ↔ ∃ u < t, x.Tries u k r
  distinct : (found.map Prod.fst).Nodup
  removed_eq : removed = x.taken t

/-- The record that goes with a phase. -/
inductive Stage : Phase K R → Prop where
  | poll (record : x.Record t (fun _ => False) [] [] 0) : Stage .poll
  | drain (record : x.Record t (fun _ => False) [] [] 0) : Stage .drain
  | scan {i : Nat} {found : List (K × R)}
      (record : x.Record t (fun k => (turn k).val < i) found [] 0) : Stage (.scan i found)
  | remove {left tried : List (K × R)} {removed : Nat}
      (record : x.Record t (fun _ => True) (tried ++ left) tried removed) :
      Stage (.remove left removed)
  | done {past : K → Prop} {tried : List (K × R)} {removed : Nat}
      (record : x.Record t past tried tried removed) : Stage (.done removed)

section Stage

variable {x t u k l r} {past : K → Prop} {found tried left : List (K × R)} {removed : Nat}

/-- What is found is past. -/
theorem Record.past_of_mem {e : K × R} (h : x.Record t past found tried removed)
    (mem : e ∈ found) : past e.1 := by
  obtain ⟨u, before, looks, -⟩ := (h.found_iff e.1 e.2).mp mem
  exact (h.past_iff e.1).mpr ⟨u, before, looks⟩

/-- A step that neither looks nor tries leaves the record alone. -/
theorem Record.wait (h : x.Record t past found tried removed) (looks : ∀ k, ¬ x.Looks t k)
    (tries : ∀ k r, ¬ x.Tries t k r) (taken : x.taken (t + 1) = x.taken t) :
    x.Record (t + 1) past found tried removed where
  past_iff k := by rw [h.past_iff, Nat.exists_lt_succ_right, or_iff_left (looks k)]
  found_iff k r := by
    rw [h.found_iff, Nat.exists_lt_succ_right, or_iff_left fun scans => looks k scans.1]
  tried_iff k r := by rw [h.tried_iff, Nat.exists_lt_succ_right, or_iff_left (tries k r)]
  distinct := h.distinct
  removed_eq := h.removed_eq.trans taken.symm

/-- What happens outside of the sweep leaves the stage alone. -/
theorem Stage.other {p : Phase K R} (h : x.Stage t p) (own : x.own t = false) :
    x.Stage (t + 1) p := by
  have wait : ∀ {past found tried removed}, x.Record t past found tried removed →
      x.Record (t + 1) past found tried removed := by
    intro past found tried removed record
    refine record.wait ?_ ?_ (taken_succ_of_other own)
    · rintro k ⟨own', -⟩
      rw [own] at own'
      cases own'
    · rintro k r ⟨own', -⟩
      rw [own] at own'
      cases own'
  cases h with
  | poll record => exact .poll (wait record)
  | drain record => exact .drain (wait record)
  | scan record => exact .scan (wait record)
  | remove record => exact .remove (wait record)
  | done record => exact .done (wait record)

/-- A step of the sweep that neither looks nor tries leaves the record alone. -/
theorem Record.pass (h : x.Record t past found tried removed) (own : x.own t = true)
    (scan : ∀ k found, x.phase t ≠ .scan (turn k) found)
    (remove : ∀ e left removed, x.phase t ≠ .remove (e :: left) removed) :
    x.Record (t + 1) past found tried removed := by
  refine h.wait ?_ ?_ (taken_succ_of_kept (cache_succ_of_phase own remove))
  · rintro k ⟨-, found, phase⟩
    exact scan k found phase
  · rintro k r ⟨-, left, removed, phase⟩
    exact remove _ left removed phase

/-- The scan comes to the keys with turn `i`. -/
theorem looks_iff {i : Nat} (own : x.own t = true) (phase : x.phase t = .scan i found) :
    x.Looks t k ↔ (turn k).val = i := by
  rw [Looks, phase]
  constructor
  · rintro ⟨-, found, here⟩
    cases here
    rfl
  · rintro rfl
    exact ⟨own, found, rfl⟩

/-- The sweep looks at the keys with turn `i`. -/
theorem Record.look {i : Nat} (h : x.Record t (fun k => (turn k).val < i) found [] 0)
    (own : x.own t = true) (phase : x.phase t = .scan i found) :
    x.Record (t + 1) (fun k => (turn k).val < i + 1)
      (found ++ Cache.collectCleared (x.scene t).ops
        ((x.scene t).cache.filter fun e => (turn e.1).val = i)) [] 0 where
  past_iff k := by
    rw [Nat.exists_lt_succ_right, ← h.past_iff, looks_iff own phase, Nat.lt_succ_iff_lt_or_eq]
  found_iff k r := by
    rw [List.mem_append, h.found_iff, Nat.exists_lt_succ_right]
    refine or_congr_right ?_
    rw [Cache.mem_collectCleared, List.mem_filter, decide_eq_true_iff, Scans,
      looks_iff own phase, Cache.get?_eq_some_iff (x.scene t).distinct]
    constructor
    · rintro ⟨⟨mem, now⟩, cleared⟩
      exact ⟨now, mem, cleared⟩
    · rintro ⟨now, mem, cleared⟩
      exact ⟨⟨mem, now⟩, cleared⟩
  tried_iff k r := by
    rw [h.tried_iff, Nat.exists_lt_succ_right, or_iff_left]
    rintro ⟨-, left, removed, phase'⟩
    rw [phase] at phase'
    cases phase'
  distinct := by
    rw [List.map_append]
    refine List.nodup_append.mpr ⟨h.distinct, ?_, ?_⟩
    · exact ((x.scene t).distinct.filter _).filter _
    · rintro k before l now rfl
      obtain ⟨e, mem, rfl⟩ := List.mem_map.mp before
      obtain ⟨e', mem', keys⟩ := List.mem_map.mp now
      have here := (List.mem_filter.mp (Cache.mem_collectCleared.mp mem').1).2
      rw [decide_eq_true_iff, keys] at here
      exact absurd here (h.past_of_mem mem).ne
  removed_eq := by
    refine h.removed_eq.trans (taken_succ_of_kept (cache_succ_of_phase own ?_)).symm
    simp [phase]

/-- The sweep tries a key. -/
theorem Record.attempt {e : K × R} {removed' : Nat}
    (h : x.Record t past (tried ++ e :: left) tried removed) (own : x.own t = true)
    (phase : x.phase t = .remove (e :: left) removed)
    (taken : removed' = x.taken (t + 1)) :
    x.Record (t + 1) past ((tried ++ [e]) ++ left) (tried ++ [e]) removed' := by
  have looks : ∀ k, ¬ x.Looks t k := by
    rintro k ⟨-, found, phase'⟩
    rw [phase] at phase'
    cases phase'
  rw [List.append_assoc, List.singleton_append]
  refine ⟨?_, ?_, ?_, h.distinct, taken⟩
  · intro k
    rw [h.past_iff, Nat.exists_lt_succ_right, or_iff_left (looks k)]
  · intro k r
    rw [h.found_iff, Nat.exists_lt_succ_right, or_iff_left fun scans => looks k scans.1]
  · intro k r
    rw [List.mem_append, List.mem_singleton, h.tried_iff, Nat.exists_lt_succ_right]
    refine or_congr_right ?_
    rw [Tries, phase]
    constructor
    · rintro rfl
      exact ⟨own, left, removed, rfl⟩
    · rintro ⟨-, left, removed, here⟩
      cases here
      rfl

/-- A step of the sweep extends the record as its phase says. -/
theorem Stage.own (h : x.Stage t (x.phase t)) (own : x.own t = true) :
    x.Stage (t + 1) (x.phase (t + 1)) := by
  rw [phase_succ own]
  cases phase : x.phase t with
  | poll =>
    rw [phase] at h
    cases h with | poll record
    have record := record.pass own (by simp [phase]) (by simp [phase])
    cases notices : (x.scene t).queue.isEmpty with
    | true =>
      rw [(advance_of_isEmpty notices).1]
      exact .done record
    | false =>
      rw [(advance_of_pending notices).1]
      exact .drain record
  | drain =>
    rw [phase] at h
    cases h with | drain record
    have record := record.pass own (by simp [phase]) (by simp [phase])
    cases notices : (x.scene t).queue.isEmpty with
    | true =>
      rw [(advance_of_isEmpty notices).2]
      refine .scan ?_
      simpa only [Nat.not_lt_zero] using record
    | false =>
      rw [(advance_of_pending notices).2]
      exact .drain record
  | scan i found =>
    rw [phase] at h
    cases h with | scan record
    by_cases more : i < n
    · rw [advance_scan_of_lt more]
      exact .scan (record.look own phase)
    · have all : ∀ k, (turn k).val < i := fun k => (turn k).isLt.trans_le (Nat.not_lt.mp more)
      rw [advance_scan_of_le (Nat.not_lt.mp more)]
      have passed : x.Record (t + 1) (fun k => (turn k).val < i) ([] ++ found) [] 0 := by
        refine record.pass own ?_ (by simp [phase])
        intro k found' here
        rw [phase] at here
        cases here
        exact lt_irrefl _ (all k)
      simp only [all] at passed
      exact .remove passed
  | remove left removed =>
    rw [phase] at h
    cases h with | remove record
    cases left with
    | nil =>
      rw [List.append_nil] at record
      exact .done (record.pass own (by simp [phase]) (by simp [phase]))
    | cons e left =>
      obtain ⟨k, r⟩ := e
      have scene := scene_succ own
      rw [phase] at scene
      rcases advance_remove turn (x.scene t) k r left removed with
        ⟨r', held, -, step⟩ | ⟨-, step⟩
      · rw [step]
        have taken := taken_succ_of_drop own held (by rw [scene, step])
        rw [← record.removed_eq] at taken
        exact .remove (record.attempt own phase taken.symm)
      · rw [step]
        have kept : (x.scene (t + 1)).cache = (x.scene t).cache := by rw [scene, step]
        have taken := taken_succ_of_kept kept
        rw [← record.removed_eq] at taken
        exact .remove (record.attempt own phase taken.symm)
  | done removed =>
    rw [phase] at h
    cases h with | done record
    exact .done (record.pass own (by simp [phase]) (by simp [phase]))

/-- At every time the record is that of the phase. -/
theorem stage (x : Execution turn R) (t : Nat) : x.Stage t (x.phase t) := by
  induction t with
  | zero =>
    rw [x.start]
    exact .poll ⟨by simp, by simp, by simp, List.nodup_nil, rfl⟩
  | succ t ih =>
    cases own : x.own t with
    | true => exact ih.own own
    | false =>
      rw [(x.other_step t own).1]
      exact ih.other own

theorem record_of_scan {i : Nat} (phase : x.phase t = .scan i found) :
    x.Record t (fun k => (turn k).val < i) found [] 0 := by
  have stage := x.stage t
  rw [phase] at stage
  cases stage with | scan record
  exact record

theorem record_of_remove (phase : x.phase t = .remove left removed) :
    ∃ tried, x.Record t (fun _ => True) (tried ++ left) tried removed := by
  have stage := x.stage t
  rw [phase] at stage
  cases stage with | remove record
  exact ⟨_, record⟩

theorem record_of_done (phase : x.phase t = .done removed) :
    ∃ past tried, x.Record t past tried tried removed := by
  have stage := x.stage t
  rw [phase] at stage
  cases stage with | done record
  exact ⟨_, _, record⟩

/-- What is tried was found cleared. -/
theorem Tries.scanned (h : x.Tries t k r) : ∃ u < t, x.Scans u k r := by
  obtain ⟨-, left, removed, phase⟩ := h
  obtain ⟨tried, record⟩ := record_of_remove phase
  exact (record.found_iff k r).mp (by simp)

/-- The scan comes to no key twice. -/
theorem Looks.once (h : x.Looks t k) (h' : x.Looks u k) : t = u := by
  have apart : ∀ {t u}, x.Looks t k → x.Looks u k → ¬ t < u := by
    intro t u earlier later lt
    obtain ⟨-, found, phase⟩ := later
    exact lt_irrefl _ (((record_of_scan phase).past_iff k).mpr ⟨t, lt, earlier⟩)
  exact Nat.le_antisymm (Nat.not_lt.mp (apart h' h)) (Nat.not_lt.mp (apart h h'))

/-- No key is tried twice. -/
theorem Tries.once {r' : R} (h : x.Tries t k r) (h' : x.Tries u k r') : t = u := by
  have apart : ∀ {t u r r'}, x.Tries t k r → x.Tries u k r' → ¬ t < u := by
    intro t u r r' earlier later lt
    obtain ⟨-, left, removed, phase⟩ := later
    obtain ⟨tried, record⟩ := record_of_remove phase
    have before : (k, r) ∈ tried := (record.tried_iff k r).mpr ⟨t, lt, earlier⟩
    have keys := record.distinct
    rw [List.map_append] at keys
    exact (List.nodup_append.mp keys).2.2 k (Cache.key_mem before) k (by simp) rfl
  exact Nat.le_antisymm (Nat.not_lt.mp (apart h' h)) (Nat.not_lt.mp (apart h h'))

end Stage

/-! ## The laws -/

section Laws

variable {x : Execution turn R} {t : Nat}

theorem idle (own : x.own t = true) (phase : x.phase t = .poll)
    (notices : (x.scene t).queue.isEmpty = true) (u : Nat) (le : u ≥ t) :
    x.phase (u + 1) = .done 0 ∧ (x.own u = true → x.scene (u + 1) = x.scene u) := by
  induction u, le using Nat.le_induction with
  | base =>
    have step := x.own_step t own
    rw [phase, (advance_of_isEmpty notices).1, Prod.mk.injEq] at step
    exact ⟨step.1, fun _ => step.2⟩
  | succ u _ ih =>
    cases own : x.own (u + 1) with
    | true =>
      have step := x.own_step (u + 1) own
      rw [ih.1, Phase.advance, Prod.mk.injEq] at step
      exact ⟨step.1, fun _ => step.2⟩
    | false => exact ⟨(x.other_step (u + 1) own).1.trans ih.1, nofun⟩

theorem drains (own : x.own t = true) (phase : x.phase t = .poll)
    (notices : (x.scene t).queue.isEmpty = false) (u : Nat) (lt : u > t) :
    x.phase u = .drain ∨ ∃ d, t < d ∧ d < u ∧ x.own d = true ∧ x.phase d = .drain ∧
      (x.scene d).queue.isEmpty = true := by
  induction u, lt using Nat.le_induction with
  | base =>
    rw [phase_succ own, phase, (advance_of_pending notices).1]
    exact Or.inl rfl
  | succ u later ih =>
    rcases ih with draining | ⟨d, after, before, drained⟩
    · cases own : x.own u with
      | false => exact Or.inl ((x.other_step u own).1.trans draining)
      | true =>
        cases notices : (x.scene u).queue.isEmpty with
        | true => exact Or.inr ⟨u, later, Nat.lt_succ_self u, own, draining, notices⟩
        | false =>
          rw [phase_succ own, draining, (advance_of_pending notices).2]
          exact Or.inl rfl
    · exact Or.inr ⟨d, after, Nat.lt_succ_of_lt before, drained⟩

theorem polls (own : x.own t = true) (phase : x.phase t = .poll ∨ x.phase t = .drain) :
    (x.scene (t + 1)).queue = (x.scene t).queue.poll.2 ∧
      (x.scene (t + 1)).cache = (x.scene t).cache := by
  rw [scene_succ own]
  cases notices : (x.scene t).queue.isEmpty with
  | true =>
    rw [Queue.poll_of_isEmpty notices]
    rcases phase with phase | phase
    · rw [phase, (advance_of_isEmpty notices).1]
      exact ⟨rfl, rfl⟩
    · rw [phase, (advance_of_isEmpty notices).2]
      exact ⟨rfl, rfl⟩
  | false =>
    rcases phase with phase | phase
    · rw [phase, (advance_of_pending notices).1]
      exact ⟨rfl, rfl⟩
    · rw [phase, (advance_of_pending notices).2]
      exact ⟨rfl, rfl⟩

/-- All sweeps are lawful. -/
theorem laws (x : Execution turn R) : x.Laws where
  idle _ := idle
  drains _ := drains
  polls _ := polls
  looks t left removed phase := by
    obtain ⟨tried, record⟩ := record_of_remove phase
    intro k
    obtain ⟨u, before, looks⟩ := (record.past_iff k).mp trivial
    exact ⟨u, ⟨before, looks⟩, fun v other => other.2.once looks⟩
  removes_iff t k := by
    rw [removes_iff_tries]
    constructor
    · rintro ⟨r, r', tried, held⟩
      exact ⟨r, r', tried, tried.scanned, held⟩
    · rintro ⟨r, r', tried, -, held⟩
      exact ⟨r, r', tried, held⟩
  tries t removed k r phase scanned := by
    obtain ⟨past, tried, record⟩ := record_of_done phase
    obtain ⟨u, before, tried⟩ := (record.tried_iff k r).mp ((record.found_iff k r).mpr scanned)
    exact ⟨u, ⟨before, tried⟩, fun v other => other.2.once tried⟩
  keeps _ _ := get?_succ
  cleared t k removes := by
    obtain ⟨r, r', tried, held, same⟩ := removes_iff_tries.mp removes
    obtain ⟨u, before, -, -, cleared⟩ := tried.scanned
    refine ⟨r', held, ?_⟩
    rw [(x.scene t).lawful.cleared_eq same]
    exact cleared_of_le cleared before.le
  counts t removed phase := by
    obtain ⟨past, tried, record⟩ := record_of_done phase
    exact record.removed_eq

end Laws

/-! ## Executions from schedules -/

section Scheduled

variable (turn) (others : Nat → Option (Scene K R → Scene K R)) (s : Scene K R)

/-- A sweep that takes a step at each time for which `others` has no change of the scene. -/
def course : Nat → Phase K R × Scene K R
  | 0 => (.poll, s)
  | t + 1 =>
    match others t with
    | none => (course t).1.advance turn (course t).2
    | some change => ((course t).1, change (course t).2)

/-- The execution for a schedule of interference. -/
def scheduled (ok : ∀ t change, others t = some change → ∀ s, Interference s (change s)) :
    Execution turn R where
  phase t := (course turn others s t).1
  scene t := (course turn others s t).2
  own t := (others t).isNone
  start := rfl
  own_step t own := by
    rw [Option.isNone_iff_eq_none] at own
    simp only [course, own]
  other_step t own := by
    cases change : others t with
    | none => simp [change] at own
    | some f =>
      simp only [course, change, true_and]
      exact ok t f change _

/-- The execution without interference. -/
def quiet : Execution turn R := scheduled turn (fun _ => none) s nofun

end Scheduled

/-! ## Without interference -/

section Quiet

variable {s : Scene K R} {p p' : Phase K R}

/-- Undisturbed steps lead from one phase and scene to others. -/
inductive Leads (turn : K → Fin n) :
    Phase K R × Scene K R → Phase K R × Scene K R → Prop where
  | here {c : Phase K R × Scene K R} : Leads turn c c
  | step {c d : Phase K R × Scene K R} (h : Leads turn (c.1.advance turn c.2) d) :
      Leads turn c d

theorem Leads.trans {c d e : Phase K R × Scene K R} (h : Leads turn c d)
    (h' : Leads turn d e) : Leads turn c e := by
  induction h with
  | here => exact h'
  | step _ ih => exact .step (ih h')

/-- What the steps lead to from a point of the quiet execution is a later point of it. -/
theorem Leads.reaches {c d : Phase K R × Scene K R} (h : Leads turn c d) {t : Nat}
    (point : ((quiet turn s).phase t, (quiet turn s).scene t) = c) :
    ∃ u, ((quiet turn s).phase u, (quiet turn s).scene u) = d := by
  induction h generalizing t with
  | here => exact ⟨t, point⟩
  | step _ ih =>
    refine ih (t := t + 1) ?_
    rw [(quiet turn s).own_step t rfl, ← point]

theorem Leads.exists_time {s' : Scene K R} (h : Leads turn (.poll, s) (p, s')) :
    ∃ t, (quiet turn s).phase t = p ∧ (quiet turn s).scene t = s' := by
  obtain ⟨t, point⟩ := h.reaches (t := 0) rfl
  exact ⟨t, congrArg Prod.fst point, congrArg Prod.snd point⟩

theorem leads_drain (notices : List Nat) (h : s.queue = ⟨notices⟩) :
    Leads turn (.drain, s) (.scan 0 [], { s with queue := {} }) := by
  induction notices generalizing s with
  | nil =>
    have step : Phase.drain.advance turn s = (.scan 0 [], s) :=
      (advance_of_isEmpty (by rw [h]; rfl)).2
    refine .step ?_
    rw [step, ← h]
    exact .here
  | cons notice rest ih =>
    have step : Phase.drain.advance turn s = (.drain, { s with queue := s.queue.poll.2 }) :=
      (advance_of_pending (by rw [h]; rfl)).2
    have polled : s.queue.poll.2 = ⟨rest⟩ := by rw [h]; rfl
    refine .step ?_
    rw [step]
    exact ih polled

/-- The entries with turns below `i` that the scan finds. -/
def foundBelow (turn : K → Fin n) (s : Scene K R) (i : Nat) : List (K × R) :=
  (List.range i).flatMap fun j =>
    Cache.collectCleared s.ops (s.cache.filter fun e => (turn e.1).val = j)

omit [DecidableEq K] in
theorem mem_foundBelow {e : K × R} :
    e ∈ foundBelow turn s n ↔ e ∈ s.cache ∧ s.ops.cleared e.2 = true := by
  simp only [foundBelow, List.mem_flatMap, List.mem_range, Cache.mem_collectCleared,
    List.mem_filter, decide_eq_true_iff]
  constructor
  · rintro ⟨j, -, ⟨mem, -⟩, cleared⟩
    exact ⟨mem, cleared⟩
  · rintro ⟨mem, cleared⟩
    exact ⟨_, (turn e.1).isLt, ⟨mem, rfl⟩, cleared⟩

omit [DecidableEq K] in
/-- The scan finds each cleared entry once, part by part. -/
theorem foundBelow_perm (keys : ((foundBelow turn s n).map Prod.fst).Nodup) :
    (foundBelow turn s n).Perm (s.cache.collectCleared s.ops) := by
  have cleared : ((s.cache.collectCleared s.ops).map Prod.fst).Nodup := s.distinct.filter _
  refine (List.perm_ext_iff_of_nodup (List.Nodup.of_map _ keys) ?_).mpr fun e => ?_
  · exact List.Nodup.of_map _ cleared
  · rw [mem_foundBelow, Cache.mem_collectCleared]

theorem leads_scan (i : Nat) (h : i ≤ n) :
    Leads turn (.scan 0 [], s) (.scan i (foundBelow turn s i), s) := by
  induction i with
  | zero => exact .here
  | succ i ih =>
    refine (ih (Nat.le_of_succ_le h)).trans (.step ?_)
    rw [advance_scan_of_lt h, foundBelow, foundBelow, List.range_succ, List.flatMap_append,
      List.flatMap_singleton]
    exact .here

/-- The removals come one by one to what they come to at once. -/
theorem leads_remove (turn : K → Fin n) (left : List (K × R)) (removed : Nat)
    (s : Scene K R) :
    ∃ s' : Scene K R, Leads turn (.remove left removed, s)
        (.done (removed + (s.cache.removeCleared s.ops left).1), s') ∧
      s'.queue = s.queue ∧ s'.cache = (s.cache.removeCleared s.ops left).2 := by
  induction left generalizing removed s with
  | nil => exact ⟨s, .step .here, rfl, rfl⟩
  | cons e left ih =>
    let step := s.cache.removeIfSame s.ops e.1 e.2
    let next : Scene K R :=
      { s with cache := step.2, distinct := s.distinct.removeIfSame s.ops e.2 }
    obtain ⟨s', leads, queue, cache⟩ := ih (removed + step.1.toNat) next
    refine ⟨s', .step ?_, queue, cache⟩
    rw [Nat.add_assoc] at leads
    exact leads

/-- Entries that a sweep without interference is about to remove have different keys. -/
theorem Leads.distinct {found : List (K × R)} {s' : Scene K R}
    (h : Leads turn (.poll, s) (.remove found 0, s')) : (found.map Prod.fst).Nodup := by
  obtain ⟨t, phase, -⟩ := h.exists_time
  obtain ⟨tried, record⟩ := record_of_remove phase
  have keys := record.distinct
  rw [List.map_append] at keys
  exact (List.nodup_append.mp keys).2.1

/-- Without interference the steps come to what they come to at once. -/
theorem leads_sweep (turn : K → Fin n) (s : Scene K R) :
    ∃ s' : Scene K R,
      Leads turn (.poll, s) (.done (s.cache.sweep s.ops s.queue).1, s') ∧
      s'.queue = (s.cache.sweep s.ops s.queue).2.1 ∧
      s'.cache = (s.cache.sweep s.ops s.queue).2.2 := by
  cases notices : s.queue.isEmpty with
  | true =>
    rw [Cache.sweep_of_isEmpty notices]
    refine ⟨s, .step ?_, rfl, rfl⟩
    rw [(advance_of_isEmpty notices).1]
    exact .here
  | false =>
    let drained : Scene K R := { s with queue := {} }
    let found := foundBelow turn drained n
    have scanned : Leads turn (.poll, s) (.remove found 0, drained) := by
      refine .step ?_
      rw [(advance_of_pending notices).1]
      refine (leads_drain _ rfl).trans ((leads_scan n le_rfl).trans (.step ?_))
      rw [advance_scan_of_le le_rfl]
      exact .here
    obtain ⟨s', removing, queue, cache⟩ := leads_remove turn found 0 drained
    have keys : (found.map Prod.fst).Nodup := scanned.distinct
    have members : ∀ e, e ∈ found ↔ e ∈ s.cache ∧ s.ops.cleared e.2 = true :=
      fun e => mem_foundBelow
    have count : found.length = s.cache.countP fun e => s.ops.cleared e.2 := by
      rw [(foundBelow_perm keys).length_eq, Cache.collectCleared, List.countP_eq_length_filter]
    have removed := Cache.removeCleared_eq s.lawful.same_self s.distinct keys
      fun e mem => ((members e).mp mem).1
    rw [Cache.filter_key_notMem_eq_live s.distinct members, count] at removed
    rw [show drained.ops = s.ops from rfl, show drained.cache = s.cache from rfl, removed,
      Nat.zero_add] at removing
    rw [Cache.sweep_of_pending s.lawful.same_self s.distinct notices]
    refine ⟨s', scanned.trans removing, queue, ?_⟩
    rw [cache]
    exact congrArg Prod.snd removed

end Quiet

/-- What a sweep does whatever happens beside it, and what it comes to if nothing does. -/
theorem sweep_amid_interference (turn : K → Fin n) :
    (∀ x : Execution turn R, x.Laws) ∧
      ∀ s : Scene K R,
        (∃ t, (quiet turn s).phase t = .done (s.cache.sweep s.ops s.queue).1 ∧
          ((quiet turn s).scene t).queue = (s.cache.sweep s.ops s.queue).2.1 ∧
          ((quiet turn s).scene t).cache = (s.cache.sweep s.ops s.queue).2.2) ∧
        s.cache.sweep s.ops s.queue =
          if s.queue.isEmpty then (0, s.queue, s.cache)
          else (s.cache.countP fun e => s.ops.cleared e.2, {},
            s.cache.filter fun e => !s.ops.cleared e.2) := by
  refine ⟨laws, fun s => ⟨?_, ?_⟩⟩
  · obtain ⟨s', leads, queue, cache⟩ := leads_sweep turn s
    obtain ⟨t, phase, scene⟩ := leads.exists_time
    exact ⟨t, phase, by rw [scene, queue], by rw [scene, cache]⟩
  cases notices : s.queue.isEmpty with
  | true =>
    rw [if_pos rfl]
    exact Cache.sweep_of_isEmpty notices
  | false =>
    rw [if_neg Bool.false_ne_true]
    exact Cache.sweep_of_pending s.lawful.same_self s.distinct notices

/-- Two dead entries are found, and the first gets a live reference before it is tried. -/
def refreshed : Execution (fun _ : Nat => (0 : Fin 1)) Nat :=
  let start : Scene Nat Nat :=
    { queue := ⟨[0]⟩, cache := [(1, 1), (2, 2)], ops := ⟨fun r => r < 10, fun r r' => r == r'⟩,
      distinct := by simp [Cache.Distinct],
      lawful := ⟨fun r => beq_self_eq_true r, fun same => by rw [beq_iff_eq.mp same]⟩ }
  let refresh : Scene Nat Nat → Scene Nat Nat := fun s =>
    { s with cache := s.cache.put 1 11, distinct := s.distinct.put }
  scheduled _ (fun t => if t = 4 then some refresh else none) start <| by
    intro t change here s r cleared
    split at here
    · cases here
      exact cleared
    · cases here

/-- The refreshed entry stays, and the other one is gone and counted. -/
theorem sweep_amid_interference_refreshed :
    refreshed.phase 8 = .done 1 ∧ (refreshed.scene 8).cache = [(1, 11)] ∧
      ¬ refreshed.Removes 5 1 ∧ refreshed.Removes 6 2 ∧ 1 = refreshed.taken 8 := by
  have laws := (sweep_amid_interference (R := Nat) fun _ : Nat => (0 : Fin 1)).1 refreshed
  refine ⟨rfl, rfl, ?_, ?_, laws.counts 8 1 rfl⟩
  · intro removes
    obtain ⟨r, held, cleared⟩ := laws.cleared 5 1 removes
    cases held
    cases cleared
  · refine (laws.removes_iff 6 2).mpr ⟨2, 2, ⟨rfl, [], 0, rfl⟩, ⟨2, by decide, ?_⟩, rfl, rfl⟩
    exact ⟨⟨rfl, [], rfl⟩, rfl, rfl⟩

end Execution

end ValueCore.Weak
