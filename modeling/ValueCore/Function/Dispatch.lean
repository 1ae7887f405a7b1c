import ValueCore.Value.Kind
/-!
# Dispatch on types

A function that dispatches on the type of its first argument may remember what it
found.  A *method table* maps type keys to implementations.  It never changes, and
an extended table is a new one.  The function keeps a *slot* with a snapshot of a
table, or nothing.

Every operation on a slot is made of atomic steps: read the slot (`Slot.load`),
replace the snapshot (`store`, `clear`), put one into an empty slot
(`installIfEmpty`) and replace the snapshot by one with another entry (`extend`).
Other writers may act between these steps.  So what runs in between, building a
table or resolving a type, is a computation over the slot.

Snapshots are numbered as they are made, and two handles on one snapshot have the same
number.
-/

namespace ValueCore

/-! ## Tables -/

/-- Implementations by type, each type once. -/
structure MethodTable where
  /-- The implementations. -/
  entries : List (TypeKey × Function) := []

namespace MethodTable

/-- The implementation for a type. -/
def lookup (t : MethodTable) (key : TypeKey) : Option Function := List.lookup key t.entries

/-- The implementation for a value's type.  Nil has none. -/
def lookupValue (t : MethodTable) (v : Value) : Option Function :=
  v.typeKey?.bind t.lookup

/-- Gives a type an implementation in a list of them. -/
def put (key : TypeKey) (f : Function) : List (TypeKey × Function) → List (TypeKey × Function)
  | [] => [(key, f)]
  | e :: rest => if e.1 = key then (key, f) :: rest else e :: put key f rest

/-- A table with one more entry. -/
def withEntry (t : MethodTable) (key : TypeKey) (f : Function) : MethodTable :=
  ⟨put key f t.entries⟩

/-- The table of entries given from left to right. -/
def ofEntries (entries : List (TypeKey × Function)) : MethodTable :=
  entries.foldl (fun t e => t.withEntry e.1 e.2) {}

/-- The number of types. -/
def size (t : MethodTable) : Nat := t.entries.length

/-- No type has an implementation. -/
def isEmpty (t : MethodTable) : Bool := t.entries.isEmpty

end MethodTable

/-! ## Slots -/

/-- A table in an allocation. -/
structure Snapshot where
  /-- The allocation. -/
  id : Nat
  /-- The table. -/
  table : MethodTable

/-- A place for a snapshot. -/
structure Slot where
  /-- The snapshot in the slot. -/
  current? : Option Snapshot := none
  /-- The allocation of the next snapshot. -/
  nextId : Nat := 0

namespace Slot

/-- Makes a snapshot of a table.  It is not in the slot yet. -/
def snapshot (table : MethodTable) : StateM Slot Snapshot :=
  modifyGet fun s => (⟨s.nextId, table⟩, { s with nextId := s.nextId + 1 })

/-- The snapshot in the slot. -/
def load : StateM Slot (Option Snapshot) := do
  let s ← get
  pure s.current?

/-- Whether the slot has a snapshot. -/
def isPopulated (s : Slot) : Bool := s.current?.isSome

/-- Whether the slot has this snapshot. -/
def holds (s : Slot) (x : Snapshot) : Bool := s.current?.any fun c => c.id == x.id

/-- Replaces what the slot has by a snapshot of a table. -/
def store (table : MethodTable) : StateM Slot Unit := do
  let fresh ← snapshot table
  modify fun s => { s with current? := some fresh }

/-- Empties the slot. -/
def clear : StateM Slot Unit :=
  modify fun s => { s with current? := none }

/-- Puts a snapshot into the slot if that is empty, and gives the one that the slot then
has. -/
def installIfEmpty (fresh : Snapshot) : StateM Slot Snapshot :=
  modifyGet fun s =>
    match s.current? with
    | some winner => (winner, s)
    | none => (fresh, { s with current? := some fresh })

/-- Replaces the snapshot by one that has an entry more.  An empty slot counts as the
empty table. -/
def extend (key : TypeKey) (f : Function) : StateM Slot Unit := do
  let s ← get
  let base := (s.current?.map (·.table)).getD {}
  store (base.withEntry key f)

/-- The snapshot in the slot, or the one that `populate` builds if the slot is empty.
If another writer fills the slot in the meantime, its snapshot wins. -/
def getOrPopulate (populate : StateM Slot MethodTable) : StateM Slot Snapshot := do
  match ← load with
  | some found => pure found
  | none =>
    let table ← populate
    let fresh ← snapshot table
    installIfEmpty fresh

/-- The implementation for a value's type.  One that is not in the slot's table is
resolved and remembered.  Nil has no implementation, and a type that the resolver does
not know is not remembered. -/
def resolve (target : Value) (resolver : TypeKey → StateM Slot (Option Function)) :
    StateM Slot (Option Function) :=
  match target.typeKey? with
  | none => pure none
  | some key => do
    let seen ← load
    match seen.bind fun s => s.table.lookup key with
    | some hit => pure (some hit)
    | none =>
      match ← resolver key with
      | none => pure none
      | some f =>
        extend key f
        pure (some f)

end Slot

end ValueCore
