import ValueCore.Value.Table
/-!
# Drafts of tables

A *draft* is a map or a set under change, beside the value that it was made from.  The
value stays as it is, and the draft goes on sharing a part of it.

The part that they share is made of buckets.  A bucket of several keys is held as a
whole, and a change copies it only if the key that is entered or taken out has the
bucket's value hash, whether it is found or not.  A key that is alone in its bucket is
copied by the first change of any key.

Equivalence sees the difference.  A NaN equals nothing but itself in its own place, so
a table with NaNs among its keys or values is equivalent to its draft as far as they
still share.
-/

namespace ValueCore

/-- The keys of a map, the members of a set, and nothing for other values. -/
def Value.keys : Value → List Value
  | .map _ entries _ => entries.map (·.1)
  | .set _ items _ => items
  | _ => []

/-- Where a key stands: its value hash, and how many keys with that hash are before
it. -/
def standing (keys : List Value) (i : Nat) : Option (UInt32 × Nat) :=
  keys[i]?.map fun k =>
    let h := k.hashEq
    (h, (keys.take i).countP fun l => h == l.hashEq)

/-- A map or a set under change. -/
structure Draft where
  /-- What it was made from. -/
  origin : Value
  /-- What it is now. -/
  table : Value
  /-- The value hashes of the keys that were entered or taken out. -/
  touched : List UInt32 := []

namespace Draft

/-- A draft of a value, before any change. -/
def ofValue (v : Value) : Draft := ⟨v, v, []⟩

/-- The draft after a change of a key. -/
def afterChange (d : Draft) (k table : Value) : Draft :=
  { d with table, touched := k.hashEq :: d.touched }

/-! ## Changes -/

/-- Enters a value under a key of a map, which moves to the allocation `id`.  Gives the
value that was there. -/
def insert (d : Draft) (id : Nat) (k v : Value) : Option Value × Draft :=
  match d.table with
  | .map _ t _ =>
    let done := Entries.insert t k v
    (done.1, d.afterChange k (.map id done.2 none))
  | _ => (none, d)

/-- Enters a member into a set, which moves to the allocation `id`.  Gives the member
that it replaced. -/
def add (d : Draft) (id : Nat) (x : Value) : Option Value × Draft :=
  match d.table with
  | .set _ t _ =>
    let done := Members.insert t x
    (done.1, d.afterChange x (.set id done.2 none))
  | _ => (none, d)

/-- Takes out a key of a map or a member of a set, which moves to the allocation `id`.
Gives the value or the member that was there. -/
def remove (d : Draft) (id : Nat) (k : Value) : Option Value × Draft :=
  match d.table with
  | .map _ t _ =>
    let done := Entries.remove t k
    (done.1, d.afterChange k (.map id done.2 none))
  | .set _ t _ =>
    let done := Members.remove t k
    (done.1, d.afterChange k (.set id done.2 none))
  | _ => (none, d)

/-! ## Sharing -/

/-- Whether the draft and its origin still share the bucket of a value hash. -/
def shares (d : Draft) (h : UInt32) : Bool :=
  !d.touched.contains h && 2 ≤ d.origin.keys.countP fun k => h == k.hashEq

/-- Where the key at a position of the draft or of its origin stands, if its bucket is still
shared. -/
def sharedStanding (d : Draft) (home : Allocation) (i : Nat) : Option (UInt32 × Nat) :=
  let keys := if d.table.home? = some home then d.table.keys
    else if d.origin.home? = some home then d.origin.keys else []
  (standing keys i).filter fun p => d.shares p.1

/-- The draft and its origin have the entries of shared buckets in the same places. -/
def places (d : Draft) : Value.Places := fun s t =>
  s == t ||
    match s, t with
    | .inside h i, .inside k j | .under h i, .under k j =>
      (d.sharedStanding h i).isSome && d.sharedStanding h i == d.sharedStanding k j
    | _, _ => false

/-- Whether the draft is equivalent to a value. -/
def equiv (d : Draft) (b : Value) : Bool := d.table.equivSharing d.places b

end Draft

end ValueCore
