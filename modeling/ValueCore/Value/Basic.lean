import ValueCore.Keyword.Basic
import ValueCore.Number.Basic
/-!
# Values

Values are immutable: `nil`, booleans, numbers, characters, texts, symbols,
keywords, sequences, maps, sets, functions and *host objects*.  Sequences are
lists or vectors.  The entries of a map and the elements of a set are kept in the
order in which they came.

A value that lives in an allocation carries its number.  Clones carry the same
number and values built separately have different ones.  The number tells whether
two values are identical and has no other meaning.

Sequences, maps, sets and functions may carry *metadata*, a map in an allocation
of its own.  Metadata is no part of what a value is.

A host object is known by its *facets*, the capabilities that it offers to
equality, hashing and ordering.  A facet that an object lacks is `none`.

A function is known by a label, and what the labels do is given separately
(`ValueCore.Function.Host`).
-/

namespace ValueCore

/-! ## Host objects -/

/-- How an object shows itself. -/
inductive DebugForm where
  /-- A fixed text. -/
  | text (s : String)
  /-- A name applied to the object's elements. -/
  | call (name : String)
deriving DecidableEq

/-- What two objects are compared by when their content is: equal keys, equal
objects. -/
structure ContentKey where
  /-- The kind of objects that share a content equality. -/
  family : String
  /-- The content. -/
  text : String
deriving DecidableEq

/-- The natural ordering of an object. -/
inductive OrderFacet where
  /-- Comparable with ranked objects of the same type name, by rank. -/
  | ranked (rank : Int)
  /-- One answer for everything. -/
  | constant (answer : Int)
deriving DecidableEq

/-- The value hash of a host collection. -/
inductive CollectionHash where
  /-- A fixed hash. -/
  | constant (h : UInt32)
  /-- The hash of a sequence with the same elements. -/
  | ordered
deriving DecidableEq

/-- What a host collection is equivalent to. -/
inductive CollectionMatch where
  /-- A sequence with equivalent elements. -/
  | elementwise
  /-- Anything with the content of one of the values listed for it. -/
  | listed
deriving DecidableEq

/-- The collection capability of an object. -/
structure CollectionFacet where
  /-- Whether the order of elements matters. -/
  sequential : Bool
  /-- Whether the elements can be had in order. -/
  hasSeq : Bool
  /-- The number of elements. -/
  count : Nat
  /-- The value hash. -/
  hash : CollectionHash
  /-- What the collection is equivalent to. -/
  matching : CollectionMatch
deriving DecidableEq

/-- The capabilities of a host object. -/
structure Facets where
  /-- The type name. -/
  typeName : String
  /-- How the object shows itself. -/
  debug : DebugForm
  /-- Its content, if it has content equality. -/
  content? : Option ContentKey := none
  /-- Its hash, if it has one. -/
  hash? : Option UInt32 := none
  /-- Its value hash, if it has one of its own. -/
  hashEq? : Option UInt32 := none
  /-- Its ordering, if it has one. -/
  order? : Option OrderFacet := none
  /-- Its collection capability, if it is a collection. -/
  collection? : Option CollectionFacet := none
deriving DecidableEq

/-! ## Functions -/

/-- The supported argument counts: some fixed ones, and possibly any count from a
minimum on. -/
structure Arity where
  /-- The fixed counts. -/
  fixed : List Nat := []
  /-- The minimum of the variadic case. -/
  variadic? : Option Nat := none
deriving DecidableEq

/-- A native function without its metadata. -/
structure NativeInfo where
  /-- The raw name. -/
  name : String
  /-- The supported argument counts. -/
  arity : Arity
  /-- What runs when it is called. -/
  label : Nat
  /-- Whether it has a call-site cache. -/
  hasCache : Bool := false
deriving DecidableEq

/-! ## Values -/

/-- The two kinds of sequence. -/
inductive SeqForm where
  | list
  | vector
deriving DecidableEq

mutual

/-- A value. -/
inductive Value where
  | nil
  | bool (b : Bool)
  | num (n : Number)
  | char (c : Char)
  /-- A text in an allocation. -/
  | str (id : Nat) (s : String)
  | sym (s : Symbol)
  | kw (k : Keyword)
  /-- A list or vector. -/
  | seq (form : SeqForm) (id : Nat) (items : List Value) (metadata? : Option Metadata)
  /-- A map. -/
  | map (id : Nat) (entries : List (Value × Value)) (metadata? : Option Metadata)
  /-- A set. -/
  | set (id : Nat) (items : List Value) (metadata? : Option Metadata)
  | fn (f : Function)
  /-- A host object with its elements and the values it is equivalent to, if those are
  listed. -/
  | object (id : Nat) (facets : Facets) (items alikes : List Value)

/-- A function value. -/
inductive Function where
  /-- A host closure with a table of argument counts. -/
  | native (id : Nat) (info : NativeInfo) (metadata? : Option Metadata)
  /-- A host callable that does all by itself. -/
  | callable (id : Nat) (name : String) (label : Nat) (metadata? : Option Metadata)
  /-- A function with its metadata replaced. -/
  | decorated (id : Nat) (target : Function) (metadata : Metadata)

/-- A map of metadata in an allocation. -/
inductive Metadata where
  | mk (id : Nat) (entries : List (Value × Value))

end

instance : Inhabited Value := ⟨.nil⟩

/-- A host callable without metadata. -/
def Function.foreign (id : Nat) (name : String) (label : Nat) : Function :=
  .callable id name label none

instance : Inhabited Function := ⟨.foreign 0 "" 0⟩

/-- The allocation of metadata. -/
def Metadata.id : Metadata → Nat
  | .mk id _ => id

/-- The entries of metadata. -/
def Metadata.entries : Metadata → List (Value × Value)
  | .mk _ entries => entries

/-- The allocation of a function. -/
def Function.id : Function → Nat
  | .native id _ _ => id
  | .callable id _ _ _ => id
  | .decorated id _ _ => id

namespace Value

/-- A 64-bit integer. -/
def int (n : Int64) : Value := .num (.int n)

/-- A double. -/
def float (x : Double) : Value := .num (.float x)

/-- A list without metadata. -/
def list (id : Nat) (items : List Value) : Value := .seq .list id items none

/-- A vector without metadata. -/
def vector (id : Nat) (items : List Value) : Value := .seq .vector id items none

/-- The number that a value is. -/
def number? : Value → Option Number
  | .num n => some n
  | _ => none

/-- The elements of a value that is sequential and gives its elements in order. -/
def elements? : Value → Option (List Value)
  | .seq _ _ items _ => some items
  | .object _ facets items _ =>
    match facets.collection? with
    | some c => if c.sequential && c.hasSeq then some items else none
    | none => none
  | _ => none

end Value

end ValueCore
