import ValueCore.Value.Basic
/-!
# Identity and equality of content

Two values are *identical* when they share an allocation.  Nil, booleans and
keywords are shared by nature.  A number, character or symbol that is held
directly, and an empty sequence, has no allocation to share.

`Value.equals` compares contents.  It keeps the numeric representations apart and
goes by the bits of doubles, with all NaNs equal.  Lists and vectors with equal
elements are equal.  Two maps, or two sets, are equal when they have the same
number of entries and each entry of one is equal to some entry of the other.
-/

namespace ValueCore.Value

/-! ## Identity -/

/-- Whether two values that are not the same place share an allocation. -/
def identical : Value → Value → Bool
  | .nil, .nil => true
  | .bool x, .bool y => x == y
  | .num x, .num y => x.shares y
  | .kw x, .kw y => x.same y
  | .str i _, .str j _ => i == j
  | .seq f i xs _, .seq g j _ _ => f = g && i == j && !xs.isEmpty
  | .map i _ _, .map j _ _ => i == j
  | .set i _ _, .set j _ _ => i == j
  | .fn f, .fn g => f.id == g.id
  | .object i _ _ _, .object j _ _ _ => i == j
  | _, _ => false

/-- Whether two values are identical, where `here` says that they are the same
place. -/
def identicalAt (here : Bool) (a b : Value) : Bool := here || identical a b

/-! ## Equality of content -/

/-- Whether two objects have equal content.  One without a content equality equals no
other. -/
def sameContent (x y : Facets) : Bool :=
  match x.content?, y.content? with
  | some k, some l => k = l
  | _, _ => false

mutual

/-- Whether two values have equal content. -/
def equals (a b : Value) : Bool :=
  identical a b ||
    match a, b with
    | .num x, .num y => x.sameContent y
    | .char x, .char y => x == y
    | .str _ x, .str _ y => x == y
    | .sym x, .sym y => x = y
    | .seq _ _ xs _, .seq _ _ ys _ => equalsPairwise xs ys
    | .map _ xs _, .map _ ys _ =>
      xs.length == ys.length && entriesWithin xs ys &&
        ys.all fun y => entryAmong xs y
    | .set _ xs _, .set _ ys _ =>
      xs.length == ys.length && itemsWithin xs ys && ys.all fun y => itemAmong xs y
    | .object _ x _ _, .object _ y _ _ => sameContent x y
    | _, _ => false
termination_by structural a

/-- Whether two lists have equal contents place by place. -/
def equalsPairwise (xs ys : List Value) : Bool :=
  match xs, ys with
  | [], [] => true
  | x :: xs, y :: ys => equals x y && equalsPairwise xs ys
  | _, _ => false
termination_by structural xs

/-- Whether every element of the first list equals one of the second. -/
def itemsWithin (xs ys : List Value) : Bool :=
  match xs with
  | [] => true
  | x :: rest => (ys.any fun y => equals x y) && itemsWithin rest ys
termination_by structural xs

/-- Whether some element of the list equals `y`. -/
def itemAmong (xs : List Value) (y : Value) : Bool :=
  match xs with
  | [] => false
  | x :: rest => equals x y || itemAmong rest y
termination_by structural xs

/-- Whether every entry of the first list equals one of the second. -/
def entriesWithin (xs ys : List (Value × Value)) : Bool :=
  match xs with
  | [] => true
  | e :: rest => (ys.any fun y => entryEquals e y) && entriesWithin rest ys
termination_by structural xs

/-- Whether some entry of the list equals the entry `y`. -/
def entryAmong (xs : List (Value × Value)) (y : Value × Value) : Bool :=
  match xs with
  | [] => false
  | e :: rest => entryEquals e y || entryAmong rest y
termination_by structural xs

/-- Whether two entries have equal keys and equal values. -/
def entryEquals (e y : Value × Value) : Bool :=
  match e with
  | (k, v) => equals k y.1 && equals v y.2
termination_by structural e

end

example : equals (.list 0 [.int 1]) (.vector 1 [.int 1]) = true := by decide
example : equals (.int 0) (.float ⟨0⟩) = false := by decide

end ValueCore.Value
