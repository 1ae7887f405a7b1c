import ValueCore.Value.Basic
/-!
# Places

An allocation is known by its kind and number.  The elements of a sequence or a set, and the
keys and values of a map, lie in *spots* of the collection's allocation.  A value outside of
collections may lie in a spot that is named.  A host object gives its elements as copies, which
lie in no spot.

Two spots can be one *place*.  A collection has its elements in the places of its clones, since
they have one allocation.  Collections in different allocations may share a part, such as a
leaf that both of two versions of a vector are made of.  `Places` tells which spots are one
place.
-/

namespace ValueCore

/-- An allocation, by kind and number. -/
inductive Allocation where
  | integer (id : Nat)
  | ratio (id : Nat)
  | text (id : Nat)
  | keyword (cell : Nat)
  /-- The elements of a list or a vector. -/
  | sequence (id : Nat)
  | map (id : Nat)
  | set (id : Nat)
  | function (id : Nat)
  | object (id : Nat)
deriving DecidableEq

/-- Where a value can lie. -/
inductive Spot where
  /-- Outside of collections. -/
  | named (name : Nat)
  /-- The element, member or key at a position. -/
  | inside (home : Allocation) (position : Nat)
  /-- The value under the key at a position. -/
  | under (home : Allocation) (position : Nat)
deriving DecidableEq

namespace Value

/-- The allocation of a value, nothing for what is held directly. -/
def allocation? : Value → Option Allocation
  | .num (.big i _) => some (.integer i)
  | .num (.ratio i _) => some (.ratio i)
  | .str i _ => some (.text i)
  | .kw k => some (.keyword k.cell)
  | .seq _ i _ _ => some (.sequence i)
  | .map i _ _ => some (.map i)
  | .set i _ _ => some (.set i)
  | .fn f => some (.function f.id)
  | .object i _ _ _ => some (.object i)
  | _ => none

/-- The allocation with the spots of a collection. -/
def home? : Value → Option Allocation
  | .seq _ i _ _ => some (.sequence i)
  | .map i _ _ => some (.map i)
  | .set i _ _ => some (.set i)
  | _ => none

/-! ## Values in spots -/

/-- A value with the spot that it lies in, if it lies in one. -/
abbrev Placed := Option Spot × Value

/-- Elements, from position `i` on, in the spots of a collection. -/
def placed (home : Option Allocation) (i : Nat) : List Value → List Placed
  | [] => []
  | x :: xs => (home.map (.inside · i), x) :: placed home (i + 1) xs

/-- The keys and values of entries, from position `i` on, in the spots of a map. -/
def placedEntries (home : Option Allocation) (i : Nat) :
    List (Value × Value) → List (Placed × Placed)
  | [] => []
  | e :: es =>
    ((home.map (.inside · i), e.1), (home.map (.under · i), e.2)) ::
      placedEntries home (i + 1) es

/-! ## Shared places -/

/-- Which spots are one place. -/
abbrev Places := Spot → Spot → Bool

namespace Places

/-- No two values are seen to lie in one place. -/
def apart : Places := fun _ _ => false

/-- Each spot is a place of its own, so that collections share places with their clones. -/
def own : Places := fun s t => s == t

/-- Whether two values lie in one place. -/
def meet (same : Places) : Option Spot → Option Spot → Bool
  | some s, some t => same s t
  | _, _ => false

end Places

end Value

end ValueCore
