import ValueCore.Value.Equivalence
/-!
# Tables of values

The entries of a map and the members of a set, as tables keyed by equivalence.  A
stored key answers to a probe if it has the probe's value hash and is equivalent to
it.  Inserting under a stored key replaces the key as well as the value and keeps
the place of the entry.

Host objects may be equivalent in one direction alone, so a table says whom it asks.
The keys of one value hash are a *bucket*.  A look-up asks the probe, and so does a
removal.  An insertion asks the stored key if it is alone in its bucket and the new
key if several are there.  If several stored keys answer, a look-up and an insertion
take the first of them and a removal takes the last.

Entries stay in the order in which their keys first came.
-/

namespace ValueCore

/-- Whether a stored key answers to a probe with the value hash `h`. -/
def answersTo (h : UInt32) (probe stored : Value) : Bool :=
  h == stored.hashEq && probe.equiv stored

/-- Whether a new key with the value hash `h` takes the place of a stored one, where
`crowded` says that the bucket holds several keys. -/
def supersedes (crowded : Bool) (h : UInt32) (new stored : Value) : Bool :=
  h == stored.hashEq && if crowded then new.equiv stored else stored.equiv new

/-- Takes the last element with a property out of a list. -/
def removeLast {α : Type} (p : α → Bool) : List α → Option (α × List α)
  | [] => none
  | x :: rest =>
    match removeLast p rest with
    | some (last, others) => some (last, x :: others)
    | none => if p x then some (x, rest) else none

example : removeLast (· = 1) [1, 2, 1, 3] = some (1, [1, 2, 3]) := by decide

/-- Keys with their values. -/
abbrev Entries := List (Value × Value)

namespace Entries

/-- The entry that answers to a key. -/
def find? (t : Entries) (k : Value) : Option (Value × Value) :=
  let h := k.hashEq
  List.find? (fun e => answersTo h k e.1) t

/-- The value under a key. -/
def get? (t : Entries) (k : Value) : Option Value := (t.find? k).map (·.2)

/-- Whether a key is present. -/
def contains (t : Entries) (k : Value) : Bool := (t.find? k).isSome

/-- Whether several keys have the value hash `h`. -/
def crowded (t : Entries) (h : UInt32) : Bool :=
  2 ≤ t.countP fun e => h == e.1.hashEq

/-- Enters a value in the place of the first key that `replaces` holds of, or at the
end.  Gives the value that was there. -/
def insertWhere (replaces : Value → Bool) (k v : Value) : Entries → Option Value × Entries
  | [] => (none, [(k, v)])
  | e :: rest =>
    if replaces e.1 then (some e.2, (k, v) :: rest)
    else
      let later := insertWhere replaces k v rest
      (later.1, e :: later.2)

/-- Enters a value under a key, and gives the value that was there. -/
def insert (t : Entries) (k v : Value) : Option Value × Entries :=
  let h := k.hashEq
  insertWhere (supersedes (t.crowded h) h k) k v t

/-- Takes out the last entry that answers to a key, and gives its value. -/
def remove (t : Entries) (k : Value) : Option Value × Entries :=
  let h := k.hashEq
  match removeLast (fun e => answersTo h k e.1) t with
  | some (e, others) => (some e.2, others)
  | none => (none, t)

/-- Enters pairs from left to right. -/
def ofPairs (pairs : List (Value × Value)) : Entries :=
  pairs.foldl (fun t e => (t.insert e.1 e.2).2) []

/-- The value hash of a map with these entries. -/
def hashEq (t : Entries) : UInt32 :=
  Murmur.mixCollection (Value.entryHashSum t) t.length

end Entries

/-- The members of a set. -/
abbrev Members := List Value

namespace Members

/-- The member that answers to a value. -/
def find? (t : Members) (x : Value) : Option Value :=
  let h := x.hashEq
  List.find? (answersTo h x) t

/-- Whether a value is present. -/
def contains (t : Members) (x : Value) : Bool := (t.find? x).isSome

/-- Whether several members have the value hash `h`. -/
def crowded (t : Members) (h : UInt32) : Bool :=
  2 ≤ t.countP fun y => h == y.hashEq

/-- Enters a value in the place of the first member that `replaces` holds of, or at the
end.  Gives the member that it replaced. -/
def insertWhere (replaces : Value → Bool) (x : Value) : Members → Option Value × Members
  | [] => (none, [x])
  | y :: rest =>
    if replaces y then (some y, x :: rest)
    else
      let later := insertWhere replaces x rest
      (later.1, y :: later.2)

/-- Enters a value, and gives the member that it replaced. -/
def insert (t : Members) (x : Value) : Option Value × Members :=
  let h := x.hashEq
  insertWhere (supersedes (t.crowded h) h x) x t

/-- Takes out the last member that answers to a value, and gives it. -/
def remove (t : Members) (x : Value) : Option Value × Members :=
  let h := x.hashEq
  match removeLast (answersTo h x) t with
  | some (y, others) => (some y, others)
  | none => (none, t)

/-- Enters values from left to right. -/
def ofList (items : List Value) : Members :=
  items.foldl (fun t x => (t.insert x).2) []

end Members

end ValueCore
