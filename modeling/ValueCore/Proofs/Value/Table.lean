import Mathlib.Data.List.Find
import Mathlib.Data.Set.Card
import ValueCore.Proofs.Value.Copy
import ValueCore.Proofs.Weak.Cache
import ValueCore.Value.Table
/-!
# Tables are finite maps on classes of keys

A *key* is a formed value without a NaN.  Equivalence is an equivalence relation on keys,
and equivalent keys have one value hash, so which stored key answers to a probe depends on
their classes alone (`Key.answersTo_eq`), and so does which one a new key replaces
(`Key.supersedes_eq`).  Whom the table asks makes no difference.

The *slots* of a table are an association list from classes to the stored keys and what is
under them.  Look-ups and changes of the table are those of its slots
(`Entries.after_eq`), so the laws of association lists hold of it.  A set is the map of its
members to themselves (`Members.after_entries`).

Maps and sets that come about in this way are `Distinct`, as formed values have to be.
-/

namespace ValueCore

open Value

/-! ## Keys and their classes -/

/-- A formed value without a NaN. -/
structure Key (μ : Memory) where
  /-- The value. -/
  value : Value
  formed : Formed μ value
  free : NaNFree value

namespace Key

variable {μ : Memory}

instance setoid (μ : Memory) : Setoid (Key μ) where
  r k l := k.value.equiv l.value = true
  iseqv :=
    { refl := fun k => equiv_of_copy k.formed k.formed k.free (Copy.refl k.value)
      symm := fun {k l} => (lawful_formed μ).symm k.formed l.formed
      trans := fun {k l m} => (lawful_formed μ).trans k.formed l.formed m.formed }

instance (k l : Key μ) : Decidable (k ≈ l) :=
  inferInstanceAs (Decidable (k.value.equiv l.value = true))

/-- The classes of equivalent keys. -/
abbrev Class (μ : Memory) := Quotient (Key.setoid μ)

/-- The class of a key. -/
def toClass (k : Key μ) : Class μ := ⟦k⟧

theorem toClass_eq {k l : Key μ} : k.toClass = l.toClass ↔ k.value.equiv l.value = true :=
  Quotient.eq

theorem hashEq_eq {k l : Key μ} (h : k.toClass = l.toClass) :
    k.value.hashEq = l.value.hashEq :=
  (lawful_formed μ).hashEq_eq k.formed l.formed (toClass_eq.mp h)

/-- A stored key answers to the probes of its class. -/
theorem answersTo_eq (k l : Key μ) :
    answersTo k.value.hashEq k.value l.value = decide (l.toClass = k.toClass) := by
  rw [Bool.eq_iff_iff, answersTo, Bool.and_eq_true, beq_iff_eq, decide_eq_true_iff, ← toClass_eq]
  constructor
  · intro h
    exact h.2.symm
  · intro h
    exact ⟨hashEq_eq h.symm, h.symm⟩

/-- A new key replaces the stored key of its class, whichever of them is asked. -/
theorem supersedes_eq (crowded : Bool) (k l : Key μ) :
    supersedes crowded k.value.hashEq k.value l.value = decide (l.toClass = k.toClass) := by
  have turn : l.value.equiv k.value = k.value.equiv l.value := by
    rw [Bool.eq_iff_iff, ← toClass_eq, ← toClass_eq, eq_comm]
  rw [supersedes, turn, ite_self, ← answersTo_eq, answersTo]

end Key

/-! ## Changes -/

/-- A change of a table under a key. -/
inductive Change (μ : Memory) (α : Type) where
  /-- Something is entered. -/
  | insert (k : Key μ) (a : α)
  /-- The key is taken out. -/
  | remove (k : Key μ)

variable {μ : Memory} {α : Type}

/-- The key of a change. -/
def Change.key : Change μ α → Key μ
  | .insert k _ => k
  | .remove k => k

/-- What a change leaves under its key. -/
def Change.left : Change μ α → Option (Key μ × α)
  | .insert k a => some (k, a)
  | .remove _ => none

/-- What was entered last under a key of a class, with that key, if no key of the class was
taken out since. -/
def lastInsert (changes : List (Change μ α)) (c : Key.Class μ) : Option (Key μ × α) :=
  (changes.reverse.find? fun change => c = change.key.toClass).bind Change.left

theorem lastInsert_concat (changes : List (Change μ α)) (change : Change μ α)
    (c : Key.Class μ) :
    lastInsert (changes ++ [change]) c =
      if c = change.key.toClass then change.left else lastInsert changes c := by
  rw [lastInsert, List.reverse_concat, List.find?_cons]
  by_cases same : c = change.key.toClass
  · simp [same]
  · simp [same, lastInsert]

/-- A map after a change. -/
def Entries.change (t : Entries) : Change μ Value → Entries
  | .insert k v => (t.insert k.value v).2
  | .remove k => (t.remove k.value).2

/-- A set after a change. -/
def Members.change (t : Members) : Change μ Unit → Members
  | .insert k _ => (t.insert k.value).2
  | .remove k => (t.remove k.value).2

/-- A map after changes of the empty one, from left to right. -/
def Entries.after (changes : List (Change μ Value)) : Entries := changes.foldl Entries.change []

/-- A set after changes of the empty one, from left to right. -/
def Members.after (changes : List (Change μ Unit)) : Members := changes.foldl Members.change []

theorem Entries.after_concat (changes : List (Change μ Value)) (change : Change μ Value) :
    after (changes ++ [change]) = (after changes).change change := List.foldl_concat ..

theorem Members.after_concat (changes : List (Change μ Unit)) (change : Change μ Unit) :
    after (changes ++ [change]) = (after changes).change change := List.foldl_concat ..

/-! ## Taking out the last of a kind -/

theorem removeLast_map {β : Type} (f : α → β) (p : β → Bool) (xs : List α) :
    removeLast p (xs.map f) =
      (removeLast (fun x => p (f x)) xs).map fun r => (f r.1, r.2.map f) := by
  induction xs with
  | nil => rfl
  | cons x rest ih =>
    rw [List.map_cons, removeLast, ih, removeLast]
    cases removeLast (fun x => p (f x)) rest with
    | some r => rfl
    | none =>
      dsimp only [Option.map_none]
      split <;> rfl

/-- If one element at most has the property, it is taken out of its place. -/
theorem removeLast_eq {p : α → Bool} {xs : List α}
    (once : xs.Pairwise fun x y => ¬(p x = true ∧ p y = true)) :
    removeLast p xs = (xs.find? p).map fun x => (x, xs.filter fun y => !p y) := by
  induction xs with
  | nil => rfl
  | cons x rest ih =>
    rw [List.pairwise_cons] at once
    rw [removeLast, ih once.2, List.find?_cons, List.filter_cons]
    cases here : p x with
    | true =>
      have absent : ∀ y ∈ rest, p y = false := by
        intro y mem
        simpa [here] using once.1 y mem
      have missing : rest.find? p = none := by simpa using absent
      have kept : (rest.filter fun y => !p y) = rest := by simpa using absent
      simp [missing, kept]
    | false =>
      cases rest.find? p with
      | some y => simp
      | none => simp

/-! ## Slots -/

/-- For each class its key and the value under it. -/
abbrev Slots (μ : Memory) := Weak.Cache (Key.Class μ) (Key μ × Value)

namespace Slots

variable {u : Slots μ}

/-- The slots after a change. -/
def change (u : Slots μ) : Change μ Value → Slots μ
  | .insert k v => u.put k.toClass (k, v)
  | .remove k => u.drop k.toClass

/-- The slots after changes, from left to right. -/
def after (changes : List (Change μ Value)) : Slots μ := changes.foldl change []

theorem after_concat (changes : List (Change μ Value)) (change : Change μ Value) :
    after (changes ++ [change]) = (after changes).change change := List.foldl_concat ..

/-- Every key is in the slot of its class, and every class has one slot. -/
structure Sound (u : Slots μ) : Prop where
  classed : ∀ e ∈ u, e.2.1.toClass = e.1
  distinct : u.Distinct

theorem Sound.change (h : u.Sound) (change : Change μ Value) : (u.change change).Sound := by
  cases change with
  | insert k v =>
    refine ⟨fun e mem => ?_, h.distinct.put⟩
    rcases (Weak.Cache.mem_put h.distinct).mp mem with rfl | old
    · rfl
    · exact h.classed e old.1
  | remove k =>
    refine ⟨fun e mem => ?_, h.distinct.drop⟩
    exact h.classed e (Weak.Cache.mem_drop.mp mem).1

theorem sound_after (changes : List (Change μ Value)) : (after changes).Sound := by
  induction changes using List.reverseRecOn with
  | nil => exact ⟨by simp [after], List.nodup_nil⟩
  | append_singleton changes change ih =>
    rw [after_concat]
    exact ih.change change

/-- What is found after a change is what the change left, or what was there before. -/
theorem get?_change (u : Slots μ) (change : Change μ Value) (c : Key.Class μ) :
    (u.change change).get? c = if c = change.key.toClass then change.left else u.get? c := by
  cases change with
  | insert k v => exact Weak.Cache.get?_put
  | remove k => exact Weak.Cache.get?_drop

theorem get?_after (changes : List (Change μ Value)) (c : Key.Class μ) :
    (after changes).get? c = lastInsert changes c := by
  induction changes using List.reverseRecOn with
  | nil => rfl
  | append_singleton changes change ih =>
    rw [lastInsert_concat, ← ih, ← get?_change, after_concat]

/-- There are as many slots as classes present. -/
theorem length_after (changes : List (Change μ Value)) :
    (after changes).length = {c | (lastInsert changes c).isSome}.ncard := by
  have distinct := (sound_after changes).distinct
  have present : {c | (lastInsert changes c).isSome} =
      (((after changes).map Prod.fst).toFinset : Set (Key.Class μ)) := by
    ext c
    rw [Set.mem_ofPred_eq, ← get?_after, Option.isSome_iff_exists, List.coe_toFinset,
      Set.mem_ofPred_eq, List.mem_map]
    simp only [Weak.Cache.get?_eq_some_iff distinct]
    constructor
    · rintro ⟨s, mem⟩
      exact ⟨(c, s), mem, rfl⟩
    · rintro ⟨e, mem, rfl⟩
      exact ⟨e.2, mem⟩
  rw [present, Set.ncard_coe_finset, List.toFinset_card_of_nodup distinct, List.length_map]

/-! ## Maps and their slots -/

/-- The entries of a map with some slots. -/
def entries (u : Slots μ) : Entries := u.map fun e => (e.2.1.value, e.2.2)

/-- No two keys of different slots are equivalent. -/
theorem Sound.apart (h : u.Sound) : (u.entries.map Prod.fst).Pairwise fun x y =>
    x.equiv y = false ∧ y.equiv x = false := by
  rw [entries, List.map_map]
  refine List.pairwise_map.mpr ((List.pairwise_map.mp h.distinct).imp_of_mem ?_)
  intro e e' mem mem' distinct
  rw [← h.classed e mem, ← h.classed e' mem'] at distinct
  rw [← Bool.not_eq_true, ← Bool.not_eq_true, Function.comp_apply, Function.comp_apply,
    ← Key.toClass_eq, ← Key.toClass_eq]
  exact ⟨distinct, Ne.symm distinct⟩

theorem Sound.answersTo_eq (h : u.Sound) (k : Key μ) {e : Key.Class μ × Key μ × Value}
    (mem : e ∈ u) :
    answersTo k.value.hashEq k.value e.2.1.value = decide (e.1 = k.toClass) := by
  rw [Key.answersTo_eq, h.classed e mem]

/-- A look-up asks for the slot of a class. -/
theorem Sound.find?_entries (h : u.Sound) (k : Key μ) :
    u.entries.find? k.value = (u.get? k.toClass).map fun s => (s.1.value, s.2) := by
  rw [Entries.find?, entries, List.find?_map, Weak.Cache.get?_eq_find?, Option.map_map]
  congr 1
  exact List.find?_congr fun e mem => h.answersTo_eq k mem

/-- An insertion fills the slot of a class. -/
theorem Sound.insert_entries (h : u.Sound) (k : Key μ) (v : Value) :
    u.entries.insert k.value v =
      ((u.get? k.toClass).map Prod.snd, entries (u.put k.toClass (k, v))) := by
  have classed := h.classed
  rw [Entries.insert]
  generalize u.entries.crowded k.value.hashEq = crowded
  clear h
  induction u with
  | nil => rfl
  | cons e rest ih =>
    rw [List.forall_mem_cons] at classed
    have later := ih classed.2
    simp only [entries, List.map_cons, Entries.insertWhere] at later ⊢
    rw [later, Key.supersedes_eq, Weak.Cache.get?_cons, Weak.Cache.put, classed.1]
    by_cases found : e.1 = k.toClass
    · simp [found]
    · simp [found, Ne.symm found]

/-- A removal takes out the slot of a class. -/
theorem Sound.remove_entries (h : u.Sound) (k : Key μ) :
    u.entries.remove k.value =
      ((u.get? k.toClass).map Prod.snd, entries (u.drop k.toClass)) := by
  have once : u.entries.Pairwise fun x y =>
      ¬(answersTo k.value.hashEq k.value x.1 = true ∧
        answersTo k.value.hashEq k.value y.1 = true) := by
    refine List.pairwise_map.mpr ((List.pairwise_map.mp h.distinct).imp_of_mem ?_)
    intro e e' mem mem' distinct both
    rw [h.answersTo_eq k mem, h.answersTo_eq k mem', decide_eq_true_iff,
      decide_eq_true_iff] at both
    exact distinct (both.1.trans both.2.symm)
  have rest : (u.entries.filter fun e => !answersTo k.value.hashEq k.value e.1) =
      entries (u.drop k.toClass) := by
    rw [entries, entries, List.filter_map, Weak.Cache.drop]
    congr 1
    refine List.filter_congr fun e mem => ?_
    rw [Function.comp_apply, h.answersTo_eq k mem, decide_not]
  have found := h.find?_entries k
  rw [Entries.find?] at found
  rw [Entries.remove, removeLast_eq once, found, rest]
  cases present : u.get? k.toClass with
  | some s => rfl
  | none =>
    rw [Weak.Cache.drop_of_get?_none present]
    rfl

end Slots

namespace Entries

variable (changes : List (Change μ Value)) (k : Key μ)

/-- A map has the slots that its changes make. -/
theorem after_eq : after changes = (Slots.after changes).entries := by
  induction changes using List.reverseRecOn with
  | nil => rfl
  | append_singleton changes change ih =>
    have sound := Slots.sound_after changes
    rw [after_concat, ih, Slots.after_concat]
    cases change with
    | insert k v => rw [Entries.change, sound.insert_entries, Slots.change]
    | remove k => rw [Entries.change, sound.remove_entries, Slots.change]

theorem find?_after : (after changes).find? k.value =
    (lastInsert changes k.toClass).map fun s => (s.1.value, s.2) := by
  rw [after_eq, (Slots.sound_after changes).find?_entries, Slots.get?_after]

theorem get?_after :
    (after changes).get? k.value = (lastInsert changes k.toClass).map Prod.snd := by
  rw [get?, find?_after, Option.map_map]
  rfl

theorem insert_after (v : Value) :
    ((after changes).insert k.value v).1 = (after changes).get? k.value := by
  rw [get?_after, after_eq, (Slots.sound_after changes).insert_entries, Slots.get?_after]

theorem remove_after :
    ((after changes).remove k.value).1 = (after changes).get? k.value := by
  rw [get?_after, after_eq, (Slots.sound_after changes).remove_entries, Slots.get?_after]

theorem apart_after : ((after changes).map Prod.fst).Pairwise fun x y =>
    x.equiv y = false ∧ y.equiv x = false := by
  rw [after_eq]
  exact (Slots.sound_after changes).apart

theorem length_after :
    (after changes).length = {c | (lastInsert changes c).isSome}.ncard := by
  rw [after_eq, Slots.entries, List.length_map, Slots.length_after]

/-- No two keys of a map are equivalent if they were entered one by one. -/
theorem distinct_after (i : Nat) (m : Option Metadata) :
    (Value.map i (after changes) m).Distinct :=
  (apart_after changes).imp And.left

end Entries

/-! ## Sets as maps -/

/-- A change of a set as a change of the map of its members to themselves. -/
def Change.entry : Change μ Unit → Change μ Value
  | .insert k _ => .insert k k.value
  | .remove k => .remove k

theorem Change.key_entry (change : Change μ Unit) : change.entry.key = change.key := by
  cases change <;> rfl

theorem Change.left_entry (change : Change μ Unit) :
    change.entry.left = change.left.map fun s => (s.1, s.1.value) := by
  cases change <;> rfl

theorem lastInsert_map_entry (changes : List (Change μ Unit)) (c : Key.Class μ) :
    lastInsert (changes.map Change.entry) c =
      (lastInsert changes c).map fun s => (s.1, s.1.value) := by
  induction changes using List.reverseRecOn with
  | nil => rfl
  | append_singleton changes change ih =>
    rw [List.map_append, List.map_singleton, lastInsert_concat, lastInsert_concat, ih,
      Change.key_entry, Change.left_entry, apply_ite (Option.map _)]

namespace Members

/-- The map of the members to themselves. -/
def entries (t : Members) : Entries := t.map fun y => (y, y)

theorem get?_entries (t : Members) (x : Value) : t.entries.get? x = t.find? x := by
  rw [Entries.get?, Entries.find?, entries, List.find?_map, Option.map_map]
  exact Option.map_id'

theorem insert_entries (t : Members) (x : Value) :
    t.entries.insert x x = ((t.insert x).1, entries (t.insert x).2) := by
  have crowded : t.entries.crowded x.hashEq = t.crowded x.hashEq := by
    rw [Entries.crowded, entries, List.countP_map]
    rfl
  rw [Entries.insert, insert, crowded]
  generalize supersedes (t.crowded x.hashEq) x.hashEq x = replaces
  clear crowded
  induction t with
  | nil => rfl
  | cons y rest ih =>
    simp only [entries, List.map_cons, Entries.insertWhere, insertWhere] at ih ⊢
    rw [ih]
    split <;> rfl

theorem remove_entries (t : Members) (x : Value) :
    t.entries.remove x = ((t.remove x).1, entries (t.remove x).2) := by
  rw [Entries.remove, remove, entries, removeLast_map]
  cases removeLast (answersTo x.hashEq x) t with
  | some r => rfl
  | none => rfl

variable (changes : List (Change μ Unit)) (x : Key μ)

theorem after_entries :
    (after changes).entries = Entries.after (changes.map Change.entry) := by
  induction changes using List.reverseRecOn with
  | nil => rfl
  | append_singleton changes change ih =>
    rw [after_concat, List.map_append, List.map_singleton, Entries.after_concat, ← ih]
    cases change with
    | insert k a => rw [Change.entry, Entries.change, insert_entries, Members.change]
    | remove k => rw [Change.entry, Entries.change, remove_entries, Members.change]

theorem find?_after : (after changes).find? x.value =
    (lastInsert changes x.toClass).map fun s => s.1.value := by
  rw [← get?_entries, after_entries, Entries.get?_after, lastInsert_map_entry, Option.map_map]
  rfl

theorem insert_after :
    ((after changes).insert x.value).1 = (after changes).find? x.value := by
  have given := Entries.insert_after (changes.map Change.entry) x x.value
  rw [← after_entries, insert_entries, get?_entries] at given
  exact given

theorem remove_after :
    ((after changes).remove x.value).1 = (after changes).find? x.value := by
  have given := Entries.remove_after (changes.map Change.entry) x
  rw [← after_entries, remove_entries, get?_entries] at given
  exact given

theorem apart_after : (after changes).Pairwise fun x y =>
    x.equiv y = false ∧ y.equiv x = false := by
  have apart := Entries.apart_after (changes.map Change.entry)
  simpa only [← after_entries, entries, List.map_map, Function.comp_def, List.map_id'] using apart

theorem length_after :
    (after changes).length = {c | (lastInsert changes c).isSome}.ncard := by
  have length := Entries.length_after (changes.map Change.entry)
  simpa only [← after_entries, entries, List.length_map, lastInsert_map_entry,
    Option.isSome_map] using length

/-- No two members of a set are equivalent if they were entered one by one. -/
theorem distinct_after (i : Nat) (m : Option Metadata) :
    (Value.set i (after changes) m).Distinct :=
  (apart_after changes).imp And.left

end Members

/-! ## Finite maps on classes -/

/-- After any changes a map has under each key what was entered last under a key of its class,
and stores that key; so does a set.  No two stored keys are equivalent, and there are as many
as classes present.  Every change gives what was there before. -/
theorem table_eq_lastInsert (μ : Memory) :
    (∀ changes : List (Change μ Value),
      let t := Entries.after changes
      (∀ k : Key μ,
        t.find? k.value =
          (lastInsert changes k.toClass).map (fun s => (s.1.value, s.2)) ∧
        t.get? k.value = (lastInsert changes k.toClass).map Prod.snd ∧
        t.contains k.value = (lastInsert changes k.toClass).isSome ∧
        (∀ v, (t.insert k.value v).1 = t.get? k.value) ∧
        (t.remove k.value).1 = t.get? k.value) ∧
      (t.map Prod.fst).Pairwise (fun x y => x.equiv y = false ∧ y.equiv x = false) ∧
      t.length = {c | (lastInsert changes c).isSome}.ncard) ∧
    (∀ changes : List (Change μ Unit),
      let t := Members.after changes
      (∀ x : Key μ,
        t.find? x.value = (lastInsert changes x.toClass).map (fun s => s.1.value) ∧
        t.contains x.value = (lastInsert changes x.toClass).isSome ∧
        (t.insert x.value).1 = t.find? x.value ∧
        (t.remove x.value).1 = t.find? x.value) ∧
      t.Pairwise (fun x y => x.equiv y = false ∧ y.equiv x = false) ∧
      t.length = {c | (lastInsert changes c).isSome}.ncard) := by
  constructor
  · intro changes t
    refine ⟨fun k => ?_, Entries.apart_after changes, Entries.length_after changes⟩
    have found := Entries.find?_after changes k
    refine ⟨found, Entries.get?_after changes k, ?_, Entries.insert_after changes k,
      Entries.remove_after changes k⟩
    rw [Entries.contains, found, Option.isSome_map]
  · intro changes t
    refine ⟨fun x => ?_, Members.apart_after changes, Members.length_after changes⟩
    have found := Members.find?_after changes x
    refine ⟨found, ?_, Members.insert_after changes x, Members.remove_after changes x⟩
    rw [Members.contains, found, Option.isSome_map]

/-- The number 1 in three representations, and a list for a vector. -/
theorem table_eq_lastInsert_numbers :
    let one : Value := .num (.big 0 1)
    let t : Entries := (Entries.insert (Entries.insert [] (.int 1) .nil).2 one (.bool true)).2
    let u := (Entries.remove (t.insert (.vector 1 [.int 1]) .nil).2 (.list 2 [one])).2
    u.find? (.float ⟨0x3ff0000000000000⟩) = some (one, .bool true) ∧
      u.get? (.vector 1 [.int 1]) = none := by
  intro one t u
  let μ : Memory :=
    .ofList [one, .vector 1 [.int 1], .list 2 [one]] (by decide) (by simp [one, list, vector])
  let int : Key μ := ⟨.int 1, formed_num.mpr (.inl trivial), everywhere_num.mpr rfl⟩
  let big : Key μ := ⟨one, formed_num.mpr (.inr (by simp [one])), everywhere_num.mpr rfl⟩
  let float : Key μ :=
    { value := .float ⟨0x3ff0000000000000⟩
      formed := formed_num.mpr (.inl trivial)
      free := everywhere_num.mpr (by decide) }
  let vector : Key μ :=
    { value := .vector 1 [.int 1]
      formed := formed_seq.mpr
        ⟨.inr (by simp [Value.vector]), List.forall_mem_singleton.mpr int.formed⟩
      free := everywhere_seq.mpr ⟨rfl, List.forall_mem_singleton.mpr int.free⟩ }
  let list : Key μ :=
    { value := .list 2 [one]
      formed := formed_seq.mpr
        ⟨.inr (by simp [Value.list]), List.forall_mem_singleton.mpr big.formed⟩
      free := everywhere_seq.mpr ⟨rfl, List.forall_mem_singleton.mpr big.free⟩ }
  have same : big.toClass = float.toClass ∧ list.toClass = vector.toClass := by
    rw [Key.toClass_eq, Key.toClass_eq]
    decide +kernel
  have other : float.toClass ≠ list.toClass ∧ float.toClass ≠ vector.toClass := by
    rw [Ne, Ne, Key.toClass_eq, Key.toClass_eq]
    decide +kernel
  have laws := (table_eq_lastInsert μ).1
    [.insert int .nil, .insert big (.bool true), .insert vector .nil, .remove list]
  have found := (laws.1 float).1
  have missing := (laws.1 vector).2.1
  simp only [lastInsert, List.reverse_cons, List.reverse_nil, List.nil_append,
    List.cons_append, List.find?_cons, Change.key, Change.left, same, other, decide_true,
    decide_false] at found missing
  exact ⟨found, missing⟩

end ValueCore
