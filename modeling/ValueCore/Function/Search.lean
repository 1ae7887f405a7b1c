import ValueCore.Function.Comparator
/-!
# Binary search

Looks for a key among elements in the order of a comparator.  The key is compared
with the element in the middle of a window that starts as the whole list.  The search
ends at an element that compares as `0`, or with an empty window, whose place is where
the key would go.
-/

namespace ValueCore

variable {σ : Type}

/-- What a search finds. -/
inductive SearchResult where
  /-- The index of an element that compares as `0` with the key. -/
  | found (index : Nat)
  /-- The index at which the key would go. -/
  | insertAt (index : Nat)
deriving DecidableEq

/-- Searches the window from `low` to before `high`. -/
def searchWindow (compare : Comparison σ) (elements : Array Value) (key : Value)
    (low high : Nat) (bound : high ≤ elements.size) : Eval σ SearchResult :=
  if h : low < high then do
    let mid := low + (high - low) / 2
    have inside : mid < elements.size := by omega
    let c ← compare key (elements[mid])
    if c < 0 then searchWindow compare elements key low mid (by omega)
    else if 0 < c then searchWindow compare elements key (mid + 1) high bound
    else pure (.found mid)
  else pure (.insertAt low)
termination_by high - low
decreasing_by all_goals omega

/-- Searches elements for a key with a function as comparator. -/
def Function.search (host : Host σ) (f : Function) (elements : List Value) (key : Value) :
    Eval σ SearchResult :=
  searchWindow (f.compareWith host) elements.toArray key 0 elements.toArray.size
    (Nat.le_refl _)

end ValueCore
