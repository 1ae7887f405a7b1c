import ValueCore.Value.Basic
/-!
# Argument counts

The counts of arguments that a function supports: any number of fixed counts, and
possibly every count from a minimum on.
-/

namespace ValueCore.Arity

/-- Exactly the given counts. -/
def exactly (counts : List Nat) : Arity := ⟨counts, none⟩

/-- The given count or more. -/
def atLeast (least : Nat) : Arity := ⟨[], some least⟩

/-- The counts of `a`, and the given count or more. -/
def orMore (a : Arity) (least : Nat) : Arity := { a with variadic? := some least }

/-- Whether a number of arguments is supported. -/
def accepts (a : Arity) (count : Nat) : Bool :=
  a.fixed.contains count || a.variadic?.any fun least => least ≤ count

/-- The minimum of the variadic case, if there is one. -/
def required? (a : Arity) : Option Nat := a.variadic?

end ValueCore.Arity
