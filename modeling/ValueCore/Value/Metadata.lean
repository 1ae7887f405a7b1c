import ValueCore.Value.Basic
/-!
# Metadata

Sequences, maps, sets and functions take metadata.  For a collection it is a field
beside the contents, and the contents stay in their allocation.  A function with
other metadata is a new function that decorates the old one.

`Function.withMetadata` never stacks decorations.  It decorates the target of a
decorated function, and it gives the function itself if the metadata is absent or is
already the function's own.
-/

namespace ValueCore

/-- Whether two pieces of metadata are one allocation. -/
def Metadata.same (m n : Metadata) : Bool := m.id == n.id

namespace Function

/-- The metadata of a function. -/
def metadata? : Function → Option Metadata
  | .native _ _ md => md
  | .callable _ _ _ md => md
  | .decorated _ _ md => some md

/-- The function that this one decorates. -/
def target? : Function → Option Function
  | .decorated _ target _ => some target
  | _ => none

/-- Whether two functions are one. -/
def same (f g : Function) : Bool := f.id == g.id

/-- The number of decorations. -/
def layers : Function → Nat
  | .decorated _ target _ => target.layers + 1
  | _ => 0

/-- A function with other metadata, where `fresh` is the allocation of a new
function. -/
def withMetadata (fresh : Nat) (f : Function) (md : Option Metadata) : Function :=
  match md with
  | none => f
  | some md =>
    if f.metadata?.any md.same then f
    else .decorated fresh (f.target?.getD f) md

end Function

namespace Value

/-- The metadata of a value. -/
def metadata? : Value → Option Metadata
  | .seq _ _ _ md => md
  | .map _ _ md => md
  | .set _ _ md => md
  | .fn f => f.metadata?
  | _ => none

/-- A value with other metadata, or nothing if its type takes none. -/
def withMetadata (fresh : Nat) (v : Value) (md : Option Metadata) : Option Value :=
  match v with
  | .seq form id items _ => some (.seq form id items md)
  | .map id entries _ => some (.map id entries md)
  | .set id items _ => some (.set id items md)
  | .fn f => some (.fn (f.withMetadata fresh md))
  | _ => none

end Value

end ValueCore
