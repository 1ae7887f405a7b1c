import ValueCore.Text.Munged
import ValueCore.Value.Print
/-!
# Errors

What goes wrong when values are compared and functions are called.  An error knows
its cause.  Its kind is coarser: a wrong number of arguments is one way for an
argument to be invalid.

A *propagated* error is a foreign one that is carried through unchanged: its text
and the texts of what it came from.
-/

namespace ValueCore

/-- A failure. -/
inductive Error where
  /-- A call with a number of arguments that the function of the given raw name does
  not take, and the failure that led to the call, if one did. -/
  | arity (actual : Nat) (name : String) (cause? : Option Error)
  /-- An argument that is not allowed. -/
  | illegalArgument (reason : String)
  /-- An operand that cannot do what an operation needs. -/
  | typeMismatch (expected got : String) (context? : Option String)
  /-- A value that a function raised. -/
  | thrown (v : Value)
  /-- A foreign failure and what it came from. -/
  | propagated (text : String) (sources : List String)
  /-- A broken invariant. -/
  | internal (reason : String)
deriving Inhabited

/-- The coarse classes of errors. -/
inductive ErrorKind where
  | invalidArgument
  | typeMismatch
  | thrown
  | propagated
  | internal
deriving DecidableEq

/-- The name of a class. -/
def ErrorKind.name : ErrorKind → String
  | .invalidArgument => "InvalidArgument"
  | .typeMismatch => "TypeMismatch"
  | .thrown => "Thrown"
  | .propagated => "Propagated"
  | .internal => "Internal"

namespace Error

/-- The class of an error. -/
def kind : Error → ErrorKind
  | .arity _ _ _ => .invalidArgument
  | .illegalArgument _ => .invalidArgument
  | .typeMismatch _ _ _ => .typeMismatch
  | .thrown _ => .thrown
  | .propagated _ _ => .propagated
  | .internal _ => .internal

/-- Counts of arguments above this are not told exactly. -/
def arityDisplayLimit : Nat := 20

/-- A number of arguments as an error tells it. -/
def countText (actual : Nat) : String :=
  if actual ≤ arityDisplayLimit then toString actual
  else "> " ++ toString arityDisplayLimit

/-- The text of an error, where thrown values are written under a print length. -/
def message (limit : Option Nat) : Error → String
  | .arity actual name _ =>
    "Wrong number of args (" ++ countText actual ++ ") passed to: " ++ Text.demunge name
  | .illegalArgument reason => reason
  | .typeMismatch expected got none =>
    "Type error: expected " ++ expected ++ ", got " ++ got
  | .typeMismatch expected got (some context) =>
    context ++ ": expected " ++ expected ++ ", got " ++ got
  | .thrown v => v.text limit
  | .propagated text _ => text
  | .internal reason => "Internal error: " ++ reason

/-- The texts of what an error came from, nearest first. -/
def sources (limit : Option Nat) : Error → List String
  | .arity _ _ (some cause) => cause.message limit :: cause.sources limit
  | .propagated _ sources => sources
  | _ => []

end Error

/-- A mismatch between two types in an operation. -/
def typeErrorIn (context expected got : String) : Error :=
  .typeMismatch expected got (some context)

end ValueCore
