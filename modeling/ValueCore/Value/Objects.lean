import ValueCore.Text.Quoted
import ValueCore.Value.Basic
/-!
# Some host objects

Ready-made host objects, each with the facets that make it what it is: a pair that is
a sequence, a text under a tag, a version that only has an order, a bag of one
character, and an object with no capabilities at all.
-/

namespace ValueCore.Value

/-- A sequence of two values that is neither a list nor a vector. -/
def pair (id : Nat) (a b : Value) : Value :=
  let facets : Facets :=
    { typeName := "pair", debug := .call "Pair",
      collection? := some ⟨true, true, 2, .ordered, .elementwise⟩ }
  .object id facets [a, b] []

/-- A text under a tag, equal to the same text under the tag. -/
def tagged (id : Nat) (s : String) : Value :=
  let h := Text.polynomialHash s
  let facets : Facets :=
    { typeName := "tagged", debug := .text ("Tagged(" ++ Text.debugText s ++ ")"),
      content? := some ⟨"tagged", s⟩, hash? := some h, hashEq? := some (Murmur.hashInt h) }
  .object id facets [] []

/-- A number that is comparable with other versions only. -/
def version (id : Nat) (n : Int) : Value :=
  let facets : Facets :=
    { typeName := "version", debug := .text ("Version(" ++ toString n ++ ")"),
      order? := some (.ranked n) }
  .object id facets [] []

/-- A bag of one character, equivalent to that character. -/
def charBag (id : Nat) (c : Char) : Value :=
  let facets : Facets :=
    { typeName := "char-bag", debug := .text ("CharBag(" ++ Text.debugChar c ++ ")"),
      collection? := some ⟨false, false, 1, .constant c.val, .listed⟩ }
  .object id facets [] [.char c]

/-- An object that offers nothing. -/
def bare (id : Nat) : Value :=
  let facets : Facets := { typeName := "opaque", debug := .text "Opaque" }
  .object id facets [] []

end ValueCore.Value
