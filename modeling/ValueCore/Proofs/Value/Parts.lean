import ValueCore.Proofs.Number.Point
import ValueCore.Value.Basic
/-!
# Parts of values

A collection is made of its *children*: the elements of a sequence, set or object, and
the keys and values of a map.  A *part* of a value is the value itself, a child, a child
of a child, and so on.  Metadata is no part, and neither are the values that an object is
listed as equivalent to.

Every condition on a value at all depths is a condition on its parts, as
`Everywhere P`.  Children are smaller than their collections, so what passes from the
children to a value holds of all values (`children_induction`).
-/

namespace ValueCore.Value

/-! ## Children and parts -/

/-- The values that a value is directly made of. -/
def children : Value → List Value
  | .seq _ _ items _ => items
  | .map _ entries _ => entries.map Prod.fst ++ entries.map Prod.snd
  | .set _ items _ => items
  | .object _ _ items _ => items
  | _ => []

section Entries

variable {i : Nat} {es : List (Value × Value)} {m : Option Metadata} {e : Value × Value}

theorem key_mem_children (mem : e ∈ es) : e.1 ∈ (map i es m).children :=
  List.mem_append_left _ (List.mem_map_of_mem mem)

theorem val_mem_children (mem : e ∈ es) : e.2 ∈ (map i es m).children :=
  List.mem_append_right _ (List.mem_map_of_mem mem)

/-- A child of a map is the key or the value of an entry. -/
theorem exists_entry_of_mem_children {x : Value} (mem : x ∈ (map i es m).children) :
    ∃ e ∈ es, x = e.1 ∨ x = e.2 := by
  rcases List.mem_append.mp mem with key | val
  · obtain ⟨e, here, rfl⟩ := List.mem_map.mp key
    exact ⟨e, here, Or.inl rfl⟩
  · obtain ⟨e, here, rfl⟩ := List.mem_map.mp val
    exact ⟨e, here, Or.inr rfl⟩

end Entries

/-- A child is smaller than its collection. -/
theorem sizeOf_lt_of_mem_children {x v : Value} (h : x ∈ v.children) :
    sizeOf x < sizeOf v := by
  cases v with
  | seq f i items m =>
    have below : sizeOf x < sizeOf items := List.sizeOf_lt_of_mem h
    simp only [seq.sizeOf_spec]
    omega
  | map i entries m =>
    obtain ⟨⟨k, v⟩, mem, here⟩ := exists_entry_of_mem_children h
    have below := List.sizeOf_lt_of_mem mem
    simp only [map.sizeOf_spec, Prod.mk.sizeOf_spec] at below ⊢
    rcases here with rfl | rfl
    · omega
    · omega
  | set i items m =>
    have below : sizeOf x < sizeOf items := List.sizeOf_lt_of_mem h
    simp only [set.sizeOf_spec]
    omega
  | object i facets items alikes =>
    have below : sizeOf x < sizeOf items := List.sizeOf_lt_of_mem h
    simp only [object.sizeOf_spec]
    omega
  | nil => cases h
  | bool b => cases h
  | num n => cases h
  | char c => cases h
  | str i s => cases h
  | sym s => cases h
  | kw k => cases h
  | fn f => cases h

/-- What holds of a value if it holds of the children holds of all values. -/
@[elab_as_elim]
theorem children_induction {P : Value → Prop}
    (step : ∀ v, (∀ x ∈ v.children, P x) → P v) (v : Value) : P v := by
  induction size : sizeOf v using Nat.strongRecOn generalizing v with
  | ind n ih =>
    subst size
    exact step v fun x mem => ih _ (sizeOf_lt_of_mem_children mem) x rfl

theorem children_of_elements {v : Value} {xs : List Value} (h : v.elements? = some xs) :
    v.children = xs := by
  cases v with
  | seq f i items m =>
    cases h
    rfl
  | object i facets items alikes =>
    simp only [elements?] at h
    split at h
    · split at h
      · cases h
        rfl
      · cases h
    · cases h
  | _ => cases h

/-- A value occurs in another one, at any depth. -/
inductive Part : Value → Value → Prop where
  | self {v : Value} : Part v v
  | inside {u x v : Value} : x ∈ v.children → Part u x → Part u v

theorem Part.trans {u v w : Value} (h : Part u v) (h' : Part v w) : Part u w := by
  induction h' with
  | self => exact h
  | inside mem _ ih => exact .inside mem ih

/-- A condition holds of all parts of a value. -/
def Everywhere (P : Value → Prop) (v : Value) : Prop := ∀ u, Part u v → P u

section Everywhere

variable {P Q : Value → Prop} {x v : Value}

theorem Everywhere.here (h : Everywhere P v) : P v := h v .self

theorem Everywhere.child (h : Everywhere P v) (mem : x ∈ v.children) : Everywhere P x :=
  fun u part => h u (.inside mem part)

theorem Everywhere.mono (h : Everywhere P v) (imp : ∀ u, P u → Q u) : Everywhere Q v :=
  fun u part => imp u (h u part)

theorem Everywhere.of_part {u : Value} (h : Everywhere P v) (part : Part u v) :
    Everywhere P u :=
  fun w inner => h w (inner.trans part)

/-- A condition holds everywhere if it does here and everywhere in the children. -/
theorem everywhere_iff :
    Everywhere P v ↔ P v ∧ ∀ x ∈ v.children, Everywhere P x := by
  constructor
  · intro h
    exact ⟨h.here, fun _ mem => h.child mem⟩
  · rintro ⟨here, inside⟩ u part
    cases part with
    | self => exact here
    | inside mem part => exact inside _ mem u part

/-- A value without children is its only part. -/
theorem everywhere_leaf (h : v.children = []) : Everywhere P v ↔ P v := by
  rw [everywhere_iff, h]
  exact and_iff_left (fun _ mem => by cases mem)

theorem everywhere_num {n : Number} : Everywhere P (.num n) ↔ P (.num n) :=
  everywhere_leaf rfl

theorem everywhere_seq {f : SeqForm} {i : Nat} {xs : List Value} {m : Option Metadata} :
    Everywhere P (.seq f i xs m) ↔ P (.seq f i xs m) ∧ ∀ x ∈ xs, Everywhere P x :=
  everywhere_iff

theorem everywhere_map {i : Nat} {es : List (Value × Value)} {m : Option Metadata} :
    Everywhere P (.map i es m) ↔
      P (.map i es m) ∧ ∀ e ∈ es, Everywhere P e.1 ∧ Everywhere P e.2 := by
  rw [everywhere_iff]
  refine and_congr_right' ?_
  constructor
  · intro h e mem
    exact ⟨h _ (key_mem_children mem), h _ (val_mem_children mem)⟩
  · intro h x mem
    obtain ⟨e, here, rfl | rfl⟩ := exists_entry_of_mem_children mem
    · exact (h e here).1
    · exact (h e here).2

theorem everywhere_set {i : Nat} {xs : List Value} {m : Option Metadata} :
    Everywhere P (.set i xs m) ↔ P (.set i xs m) ∧ ∀ x ∈ xs, Everywhere P x :=
  everywhere_iff

end Everywhere

/-! ## Conditions on parts -/

/-- Whether a value is a NaN. -/
def isNaN : Value → Bool
  | .num n => n.isNaN
  | _ => false

/-- Whether a value is a host object. -/
def isObject : Value → Bool
  | .object _ _ _ _ => true
  | _ => false

/-- There is no NaN in a value. -/
def NaNFree : Value → Prop := Everywhere fun u => u.isNaN = false

/-- There is no host object in a value. -/
def Builtin : Value → Prop := Everywhere fun u => u.isObject = false

end ValueCore.Value
