import ValueCore.Value.Equality
import ValueCore.Value.Hash
import ValueCore.Value.Kind
import ValueCore.Value.Place
/-!
# Equivalence

`Value.equiv` is the equality of the language and of hash-keyed tables.  Identical
values are equivalent, nil only to nil, and numbers by mathematical value.  If one
side is a collection, the structure decides, and it is asked of the left side
first.  All else is equality of content.

* A sequence matches any sequential value that gives its elements, place by place.
* A map matches a map of the same size that has an equivalent value under each of
  its keys.  A set matches a set of the same size that holds each of its elements.
  Keys and elements are looked up as tables do it: by value hash, then by
  equivalence.
* A host collection matches as its facet says.

A value that meets itself in the same place is identical to itself, even a NaN.  This
is asked again of the children at every depth.  So two collections are compared under
`Places`, which tell the spots that they share.
-/

namespace ValueCore.Value

/-! ## Structure -/

/-- Equivalence of a value that is no collection.  A host collection on the right side
decides. -/
def leafEquiv (a b : Value) : Bool :=
  match b with
  | .object _ facets _ alikes =>
    match facets.collection? with
    | some c =>
      match c.matching with
      | .elementwise => false
      | .listed => alikes.any fun m => equals m a
    | none => equals a b
  | _ => equals a b

/-- Equivalence of values that are not identical, of which `structural` is known.  It is
the answer unless nil is on the left or there are two numbers. -/
@[inline] def dispatch (structural : Bool) (a b : Value) : Bool :=
  match a with
  | .nil => b.isNil
  | .num x =>
    match b with
    | .num y => x.equal y
    | _ => structural
  | _ => structural

mutual

/-- Equivalence by structure if one side is a collection, and by content if none is. -/
def structuralEquiv (same : Places) (a b : Value) : Bool :=
  match a with
  | .seq _ i xs _ =>
    match b.elements? with
    | some ys => elementsEquiv same (some (.sequence i)) 0 xs (placed b.home? 0 ys)
    | none => false
  | .map i xs _ =>
    match b with
    | .map j ys _ =>
      xs.length == ys.length &&
        entriesEquiv same (some (.map i)) 0 xs (placedEntries (some (.map j)) 0 ys)
    | _ => false
  | .set i xs _ =>
    match b with
    | .set j ys _ =>
      xs.length == ys.length &&
        membersEquiv same (some (.set i)) 0 xs (placed (some (.set j)) 0 ys)
    | _ => false
  | .object id facets xs alikes =>
    match facets.collection? with
    | some c =>
      match c.matching with
      | .elementwise =>
        match b.elements? with
        | some ys => elementsEquiv same none 0 xs (placed b.home? 0 ys)
        | none => false
      | .listed => alikes.any fun m => equals m b
    | none => leafEquiv (.object id facets xs alikes) b
  | a => leafEquiv a b
termination_by structural a

/-- Whether the elements from position `i` on are equivalent to others one by one. -/
def elementsEquiv (same : Places) (home : Option Allocation) (i : Nat) (xs : List Value)
    (ys : List Placed) : Bool :=
  match xs, ys with
  | [], [] => true
  | x :: xs, y :: ys =>
    (identicalAt (same.meet (home.map (.inside · i)) y.1) x y.2 ||
      dispatch (structuralEquiv same x y.2) x y.2) &&
      elementsEquiv same home (i + 1) xs ys
  | _, _ => false
termination_by structural xs

/-- Whether every entry from position `i` on has an equivalent value under its key. -/
def entriesEquiv (same : Places) (home : Option Allocation) (i : Nat)
    (xs : List (Value × Value)) (ys : List (Placed × Placed)) : Bool :=
  match xs with
  | [] => true
  | x :: rest => entryEquiv same home i x ys && entriesEquiv same home (i + 1) rest ys
termination_by structural xs

/-- Whether the entry at position `i` has an equivalent value under its key. -/
def entryEquiv (same : Places) (home : Option Allocation) (i : Nat) (x : Value × Value)
    (ys : List (Placed × Placed)) : Bool :=
  match x with
  | (k, v) =>
    let h := k.hashEq
    match ys.find? fun y =>
      h == y.1.2.hashEq &&
        (identicalAt (same.meet (home.map (.inside · i)) y.1.1) k y.1.2 ||
          dispatch (structuralEquiv same k y.1.2) k y.1.2) with
    | some y =>
      identicalAt (same.meet (home.map (.under · i)) y.2.1) v y.2.2 ||
        dispatch (structuralEquiv same v y.2.2) v y.2.2
    | none => false
termination_by structural x

/-- Whether every element from position `i` on is held by the other list. -/
def membersEquiv (same : Places) (home : Option Allocation) (i : Nat) (xs : List Value)
    (ys : List Placed) : Bool :=
  match xs with
  | [] => true
  | x :: rest =>
    let h := x.hashEq
    (ys.any fun y =>
      h == y.2.hashEq &&
        (identicalAt (same.meet (home.map (.inside · i)) y.1) x y.2 ||
          dispatch (structuralEquiv same x y.2) x y.2))
      && membersEquiv same home (i + 1) rest ys
termination_by structural xs

end

/-! ## Equivalence -/

/-- Equivalence by kind and structure, once identity has been asked. -/
def dispatchEquiv (same : Places) (a b : Value) : Bool :=
  dispatch (structuralEquiv same a b) a b

/-- Whether two values that are not in one place are equivalent. -/
def equivSharing (same : Places) (a b : Value) : Bool :=
  identical a b || dispatchEquiv same a b

/-- Whether two values are equivalent that may lie in one place. -/
def equivAt (same : Places) (s t : Option Spot) (a b : Value) : Bool :=
  same.meet s t || equivSharing same a b

/-- Whether two values are equivalent of which no places are known to be shared but those
of clones. -/
def equiv (a b : Value) : Bool := equivSharing Places.own a b

/-! ## Strategies chosen once -/

/-- How equivalence proceeds for a fixed left side. -/
inductive EquivPred where
  /-- Only nil matches. -/
  | null
  /-- Numbers of equal value match. -/
  | number
  /-- Equality of content. -/
  | equals
  /-- Structure if one side is a collection, equality of content if not. -/
  | collection
deriving DecidableEq

/-- The name of a strategy. -/
def EquivPred.name : EquivPred → String
  | .null => "Null"
  | .number => "Number"
  | .equals => "Equals"
  | .collection => "Collection"

/-- The strategy for a left side. -/
def equivPred (a : Value) : EquivPred :=
  match a.category with
  | .null => .null
  | .number => .number
  | .sequential => .collection
  | .collection => .collection
  | .other =>
    match a with
    | .str _ _ => .equals
    | .sym _ => .equals
    | .kw _ => .equals
    | _ => .collection

/-- The answer of a strategy for the left side it was chosen for.  It does not ask for
identity first, so a NaN does not even match itself. -/
def EquivPred.answer (same : Places) (pred : EquivPred) (a b : Value) : Bool :=
  match pred with
  | .null => b.isNil
  | .number =>
    match a, b with
    | .num x, .num y => x.equal y
    | _, _ => false
  | .equals => Value.equals a b
  | .collection => structuralEquiv same a b

/-! ## Unboxed operands -/

/-- Equivalence of two 64-bit integers. -/
def equivLong (a b : Int64) : Bool := a == b

/-- Equivalence of two doubles, for which a NaN differs from itself. -/
def equivDouble (a b : Double) : Bool := a.eq b

/-- Equivalence of two booleans. -/
def equivBool (a b : Bool) : Bool := a == b

/-- Equivalence of two characters. -/
def equivChar (a b : Char) : Bool := a == b

example : equiv (.int 3) (.float ⟨0x4008000000000000⟩) = true := by decide +kernel
example : equiv (.list 0 [.int 1]) (.vector 1 [.int 1]) = true := by decide +kernel

end ValueCore.Value
