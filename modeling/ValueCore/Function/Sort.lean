import ValueCore.Function.Comparator
/-!
# Sorting

A stable merge sort over a comparison that may fail and may have effects, so the
comparisons are made in a fixed order.  The list is cut in half, with the larger
half on the right.  The left half is sorted first, and the first failure ends the
work.

A merge compares the two front elements and takes the left one unless it compares
above the right one.
-/

namespace ValueCore

variable {σ : Type}

/-- Merges two runs. -/
def merge (compare : Comparison σ) : List Value → List Value → Eval σ (List Value)
  | [], right => pure right
  | left, [] => pure left
  | l :: left, r :: right => do
    let c ← compare l r
    if c ≤ 0 then
      let rest ← merge compare left (r :: right)
      pure (l :: rest)
    else
      let rest ← merge compare (l :: left) right
      pure (r :: rest)
termination_by left right => left.length + right.length
decreasing_by all_goals simp only [List.length_cons]; omega

/-- Sorts a list by merging. -/
def mergeSort (compare : Comparison σ) (items : List Value) : Eval σ (List Value) :=
  if h : items.length ≤ 1 then pure items
  else do
    let half := items.length / 2
    let left ← mergeSort compare (items.take half)
    let right ← mergeSort compare (items.drop half)
    merge compare left right
termination_by items.length
decreasing_by all_goals simp only [List.length_take, List.length_drop]; omega

/-- Sorts a list with a function as comparator. -/
def Function.sort (host : Host σ) (f : Function) (items : List Value) :
    Eval σ (List Value) :=
  mergeSort (f.compareWith host) items

end ValueCore
