import ValueCore.Text.Quoted
import ValueCore.Value.Basic
/-!
# Kinds of values

Equivalence chooses its strategy by a value's *category*.  Dispatch on types goes
by its *type key*, which takes all functions together and tells host objects
apart by type name.  Error messages use its *type name*.
-/

namespace ValueCore

/-- What equivalence dispatches on. -/
inductive Category where
  | null
  | number
  | sequential
  | collection
  | other
deriving DecidableEq

/-- The name of a category. -/
def Category.name : Category → String
  | .null => "Null"
  | .number => "Number"
  | .sequential => "Sequential"
  | .collection => "Collection"
  | .other => "Other"

/-- The runtime type of a value that is not nil. -/
inductive TypeKey where
  | bool
  | int
  | bigInt
  | float
  | ratio
  | char
  | string
  | symbol
  | keyword
  | list
  | vector
  | map
  | set
  | fn
  /-- Host objects, by type name. -/
  | object (typeName : String)
deriving DecidableEq

namespace TypeKey

/-- The types of values that are no host objects, with their names. -/
def builtin : List (TypeKey × String) :=
  [(.bool, "Bool"), (.int, "Int"), (.bigInt, "BigInt"), (.float, "Float"), (.ratio, "Ratio"),
   (.char, "Char"), (.string, "String"), (.symbol, "Symbol"), (.keyword, "Keyword"),
   (.list, "List"), (.vector, "Vector"), (.map, "Map"), (.set, "Set"), (.fn, "Fn")]

/-- The name of a type key. -/
def name : TypeKey → String
  | .object typeName => "Object(" ++ Text.debugText typeName ++ ")"
  | key => (List.lookup key builtin).getD ""

/-- The type key of a name.  A name that no other type has is that of host objects. -/
def ofName (name : String) : TypeKey :=
  match builtin.find? fun e => e.2 = name with
  | some e => e.1
  | none => .object name

end TypeKey

namespace Value

/-- The category of a value. -/
def category : Value → Category
  | .nil => .null
  | .num _ => .number
  | .seq _ _ _ _ => .sequential
  | .map _ _ _ => .collection
  | .set _ _ _ => .collection
  | .object _ facets _ _ =>
    match facets.collection? with
    | some c => if c.sequential then .sequential else .collection
    | none => .other
  | _ => .other

/-- The type key of a value, nothing for nil. -/
def typeKey? : Value → Option TypeKey
  | .nil => none
  | .bool _ => some .bool
  | .num (.int _) => some .int
  | .num (.big _ _) => some .bigInt
  | .num (.float _) => some .float
  | .num (.ratio _ _) => some .ratio
  | .char _ => some .char
  | .str _ _ => some .string
  | .sym _ => some .symbol
  | .kw _ => some .keyword
  | .seq .list _ _ _ => some .list
  | .seq .vector _ _ _ => some .vector
  | .map _ _ _ => some .map
  | .set _ _ _ => some .set
  | .fn _ => some .fn
  | .object _ facets _ _ => some (.object facets.typeName)

/-- The type name of a value. -/
def typeName : Value → String
  | .nil => "nil"
  | .bool _ => "bool"
  | .num n => n.typeName
  | .char _ => "char"
  | .str _ _ => "string"
  | .sym _ => "symbol"
  | .kw _ => "keyword"
  | .seq .list _ _ _ => "list"
  | .seq .vector _ _ _ => "vector"
  | .map _ _ _ => "map"
  | .set _ _ _ => "set"
  | .fn _ => "fn"
  | .object _ facets _ _ => facets.typeName

/-- Whether a value is nil. -/
def isNil : Value → Bool
  | .nil => true
  | _ => false

/-- Everything but nil and false counts as true. -/
def truthy : Value → Bool
  | .nil => false
  | .bool b => b
  | _ => true

/-- A value as a collection: the number of elements, whether it is sequential, and the
elements if they can be had in order. -/
structure CollectionView where
  /-- The number of elements. -/
  count : Nat
  /-- Whether order matters. -/
  sequential : Bool
  /-- The elements. -/
  elements? : Option (List Value)

/-- The collection that a value is. -/
def collection? : Value → Option CollectionView
  | .seq _ _ items _ => some ⟨items.length, true, some items⟩
  | .map _ entries _ => some ⟨entries.length, false, none⟩
  | .set _ items _ => some ⟨items.length, false, none⟩
  | .object _ facets items _ =>
    facets.collection?.map fun c =>
      ⟨c.count, c.sequential, if c.hasSeq then some items else none⟩
  | _ => none

end Value

end ValueCore
