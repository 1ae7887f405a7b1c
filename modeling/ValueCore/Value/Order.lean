import ValueCore.Error
import ValueCore.Value.Equality
import ValueCore.Value.Kind
import ValueCore.Value.Place
/-!
# The natural order

`Value.compare` answers a number whose sign tells the order.  Identical values
compare as `0`.  Nil is below everything else.  Numbers compare by value.  Booleans,
characters, texts, symbols, keywords and vectors compare with their own type, and a
shorter vector is below a longer one.  An object compares as its facet says, which
may answer any number.

Lists, maps, sets and functions have no order, and values of different types are
not comparable.  The error tells which side is at fault.

What lies in the same place compares as `0` without an order, also inside of vectors.
So two vectors are compared under `Places`, as equivalence compares them.
-/

namespace ValueCore

/-- A comparison as a number. -/
def signOfOrdering : Ordering → Int
  | .lt => -1
  | .eq => 0
  | .gt => 1

/-- The order of booleans, false first. -/
def boolOrder (x y : Bool) : Ordering :=
  match x, y with
  | false, true => .lt
  | true, false => .gt
  | _, _ => .eq

/-- The order of characters, by code point. -/
def charOrder (x y : Char) : Ordering :=
  if x.toNat < y.toNat then .lt else if y.toNat < x.toNat then .gt else .eq

/-- The failure of comparing values of two types. -/
def notComparable (expected : String) (got : String) : Error :=
  typeErrorIn "compare" expected got

namespace Value

/-- How an object compares with a value. -/
def compareObject (facets : Facets) (b : Value) : Except Error Int :=
  match facets.order? with
  | none => .error (notComparable "comparable" facets.typeName)
  | some (.constant answer) => .ok answer
  | some (.ranked rank) =>
    match b with
    | .object _ other _ _ =>
      match other.order? with
      | some (.ranked rank') =>
        if facets.typeName = other.typeName then .ok (signOfDifference rank rank')
        else .error (notComparable facets.typeName other.typeName)
      | _ => .error (notComparable facets.typeName other.typeName)
    | _ => .error (notComparable facets.typeName b.typeName)

mutual

/-- The natural order of two values that are not in one place. -/
def compareSharing (same : Places) (a b : Value) : Except Error Int :=
  if identical a b then .ok 0
  else
    match a, b with
    | .nil, _ => .ok (-1)
    | _, .nil => .ok 1
    | .num x, .num y => .ok (x.compare y)
    | .num _, b => .error (notComparable "number" b.typeName)
    | .bool x, .bool y => .ok (signOfOrdering (boolOrder x y))
    | .char x, .char y => .ok (signOfOrdering (charOrder x y))
    | .str _ x, .str _ y => .ok (signOfOrdering (Text.order x y))
    | .sym x, .sym y => .ok (signOfOrdering (x.order y))
    | .kw x, .kw y => .ok (signOfOrdering (x.order y))
    | .seq .vector i xs _, .seq .vector j ys _ =>
      if xs.length = ys.length then
        compareElements same (some (.sequence i)) 0 xs (placed (some (.sequence j)) 0 ys)
      else .ok (if xs.length < ys.length then -1 else 1)
    | .object _ facets _ _, b => compareObject facets b
    | .seq .list _ _ _, _ => .error (notComparable "comparable" "list")
    | .map _ _ _, _ => .error (notComparable "comparable" "map")
    | .set _ _ _, _ => .error (notComparable "comparable" "set")
    | .fn _, _ => .error (notComparable "comparable" "fn")
    | a, b => .error (notComparable a.typeName b.typeName)
termination_by structural a

/-- The first comparison that is not `0` of the elements from position `i` on with
others. -/
def compareElements (same : Places) (home : Option Allocation) (i : Nat) (xs : List Value)
    (ys : List Placed) : Except Error Int :=
  match xs, ys with
  | x :: xs, y :: ys =>
    match if same.meet (home.map (.inside · i)) y.1 then .ok 0
        else compareSharing same x y.2 with
    | .error e => .error e
    | .ok c => if c = 0 then compareElements same home (i + 1) xs ys else .ok c
  | _, _ => .ok 0
termination_by structural xs

end

/-- The natural order of two values that may lie in one place. -/
def compareAt (same : Places) (s t : Option Spot) (a b : Value) : Except Error Int :=
  if same.meet s t then .ok 0 else compareSharing same a b

/-- The natural order of two values of which no places are known to be shared but those of
clones. -/
def compare (a b : Value) : Except Error Int := compareSharing Places.own a b

end Value

end ValueCore
