import ValueCore.Hash.Combine
import ValueCore.Hash.Murmur
import ValueCore.Value.Basic
/-!
# Hashes of values

Every value has two hashes.  `Value.hash` agrees with equality of content and
`Value.hashEq` with equivalence, so tables of values use the second.  A list and a
vector with the same elements hash alike in both, and metadata never takes part.

A sequence folds the hashes of its elements in order.  A set and a map add them,
so their order does not matter.  An entry of a map counts as a vector of two.

Functions and objects without a hash are hashed by their allocation.
`hashByPlace` and `hashEqByPlace` tell whether that happens anywhere inside.
-/

namespace ValueCore

/-- The hash of an allocation. -/
def placeHash (id : Nat) : UInt32 := Murmur.hashLong (Nat.toUInt64 id)

namespace Value

/-! ## The hash of content -/

mutual

/-- The hash that agrees with equality of content. -/
def hash (v : Value) : UInt32 :=
  match v with
  | .nil => 0
  | .bool b => if b then 1231 else 1237
  | .num n => n.hash
  | .char c => c.val
  | .str _ s => Text.polynomialHash s
  | .sym s => s.hash
  | .kw k => k.hash
  | .seq _ _ items _ => hashFold 1 items
  | .map _ entries _ => hashEntries entries
  | .set _ items _ => hashSum items
  | .fn f => placeHash f.id
  | .object id facets _ _ => facets.hash?.getD (placeHash id)
termination_by structural v

/-- The polynomial `31` over hashes, from a running value. -/
def hashFold (h : UInt32) (items : List Value) : UInt32 :=
  match items with
  | [] => h
  | x :: rest => hashFold (h * 31 + x.hash) rest
termination_by structural items

/-- The sum of hashes. -/
def hashSum (items : List Value) : UInt32 :=
  match items with
  | [] => 0
  | x :: rest => x.hash + hashSum rest
termination_by structural items

/-- The sum of the hashes of entries. -/
def hashEntries (entries : List (Value × Value)) : UInt32 :=
  match entries with
  | [] => 0
  | e :: rest => hashEntry e + hashEntries rest
termination_by structural entries

/-- The hash of an entry: those of key and value xored. -/
def hashEntry (e : Value × Value) : UInt32 :=
  match e with
  | (k, v) => k.hash ^^^ v.hash
termination_by structural e

end

/-! ## The value hash -/

mutual

/-- The hash that agrees with equivalence. -/
def hashEq (v : Value) : UInt32 :=
  match v with
  | .nil => 0
  | .bool b => if b then 1231 else 1237
  | .num n => n.hashEq
  | .char c => c.val
  | .str _ s => Murmur.hashInt (Text.polynomialHash s)
  | .sym s => s.hashEq
  | .kw k => k.hashEq
  | .seq _ _ items _ => Murmur.mixCollection (combineAll 1 items) items.length
  | .map _ entries _ => Murmur.mixCollection (entryHashSum entries) entries.length
  | .set _ items _ => Murmur.mixCollection (hashEqSum items) items.length
  | .fn f => placeHash f.id
  | .object id facets items _ =>
    match facets.hashEq?, facets.collection? with
    | some h, _ => h
    | none, some c =>
      match c.hash with
      | .constant h => h
      | .ordered => Murmur.mixCollection (combineAll 1 items) items.length
    | none, none => facets.hash?.getD (placeHash id)
termination_by structural v

/-- Folds value hashes into a running seed. -/
def combineAll (seed : UInt32) (items : List Value) : UInt32 :=
  match items with
  | [] => seed
  | x :: rest => combineAll (combineHash seed x.hashEq) rest
termination_by structural items

/-- The sum of value hashes. -/
def hashEqSum (items : List Value) : UInt32 :=
  match items with
  | [] => 0
  | x :: rest => x.hashEq + hashEqSum rest
termination_by structural items

/-- The sum of the value hashes of entries. -/
def entryHashSum (entries : List (Value × Value)) : UInt32 :=
  match entries with
  | [] => 0
  | e :: rest => entryHashEq e + entryHashSum rest
termination_by structural entries

/-- The value hash of an entry is that of key and value in a vector. -/
def entryHashEq (e : Value × Value) : UInt32 :=
  match e with
  | (k, v) => Murmur.mixCollection (combineHash (combineHash 1 k.hashEq) v.hashEq) 2
termination_by structural e

end

/-- The value hash of values in order. -/
def hashOrdered (items : List Value) : UInt32 :=
  Murmur.mixCollection (combineAll 1 items) items.length

/-- The value hash of values in no order. -/
def hashUnordered (items : List Value) : UInt32 :=
  Murmur.mixCollection (hashEqSum items) items.length

/-! ## Hashes that depend on a place -/

mutual

/-- Whether an allocation takes part in `hash`. -/
def hashByPlace (v : Value) : Bool :=
  match v with
  | .seq _ _ items _ => anyHashByPlace items
  | .map _ entries _ => anyEntryHashByPlace entries
  | .set _ items _ => anyHashByPlace items
  | .fn _ => true
  | .object _ facets _ _ => facets.hash?.isNone
  | _ => false
termination_by structural v

/-- Whether an allocation takes part in one of the hashes. -/
def anyHashByPlace (items : List Value) : Bool :=
  match items with
  | [] => false
  | x :: rest => x.hashByPlace || anyHashByPlace rest
termination_by structural items

/-- Whether an allocation takes part in the hash of an entry. -/
def anyEntryHashByPlace (entries : List (Value × Value)) : Bool :=
  match entries with
  | [] => false
  | e :: rest => entryHashByPlace e || anyEntryHashByPlace rest
termination_by structural entries

/-- Whether an allocation takes part in the hash of key or value. -/
def entryHashByPlace (e : Value × Value) : Bool :=
  match e with
  | (k, v) => k.hashByPlace || v.hashByPlace
termination_by structural e

end

mutual

/-- Whether an allocation takes part in `hashEq`. -/
def hashEqByPlace (v : Value) : Bool :=
  match v with
  | .seq _ _ items _ => anyHashEqByPlace items
  | .map _ entries _ => anyEntryHashEqByPlace entries
  | .set _ items _ => anyHashEqByPlace items
  | .fn _ => true
  | .object _ facets items _ =>
    match facets.hashEq?, facets.collection? with
    | some _, _ => false
    | none, some c =>
      match c.hash with
      | .constant _ => false
      | .ordered => anyHashEqByPlace items
    | none, none => facets.hash?.isNone
  | _ => false
termination_by structural v

/-- Whether an allocation takes part in one of the value hashes. -/
def anyHashEqByPlace (items : List Value) : Bool :=
  match items with
  | [] => false
  | x :: rest => x.hashEqByPlace || anyHashEqByPlace rest
termination_by structural items

/-- Whether an allocation takes part in the value hash of an entry. -/
def anyEntryHashEqByPlace (entries : List (Value × Value)) : Bool :=
  match entries with
  | [] => false
  | e :: rest => entryHashEqByPlace e || anyEntryHashEqByPlace rest
termination_by structural entries

/-- Whether an allocation takes part in the value hash of key or value. -/
def entryHashEqByPlace (e : Value × Value) : Bool :=
  match e with
  | (k, v) => k.hashEqByPlace || v.hashEqByPlace
termination_by structural e

end

example : hashEq (.list 0 []) = hashEq (.vector 1 []) := by decide

end Value

end ValueCore
