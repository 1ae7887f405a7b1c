import ValueCore.Error
import ValueCore.Value.Table
/-!
# Building values

Maps and sets are built by entering their contents from left to right.  A fraction
is built in lowest terms and is an integer if it can be; a zero denominator is an
illegal argument.
-/

namespace ValueCore.Value

/-- A map of pairs entered from left to right. -/
def mapOf (id : Nat) (pairs : List (Value × Value)) : Value :=
  .map id (Entries.ofPairs pairs) none

/-- A set of values entered from left to right. -/
def setOf (id : Nat) (items : List Value) : Value := .set id (Members.ofList items) none

/-- The fraction `n / d`. -/
def fraction (id : Nat) (n d : Int) : Except Error Value :=
  match Number.ofFraction id n d with
  | some x => .ok (.num x)
  | none => .error (.illegalArgument "Divide by zero")

end ValueCore.Value
