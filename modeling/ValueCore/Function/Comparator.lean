import ValueCore.Function.Invoke
import ValueCore.Value.Kind
/-!
# Functions as comparators

Any function of two arguments can compare.  Its answer is read once.  A boolean says
"less": true means `-1`, and after false the function is asked the other way round,
where anything that counts as true means `1`.  A number is the comparison itself,
narrowed to 32 bits.  Any other answer is a mismatch of types.

Two comparators read the answer in one way only.  `predicateCompare` takes any answer
as "less" or not, and `threeWayCompare` takes numbers alone.
-/

namespace ValueCore

/-- The answer of a function that compares. -/
inductive CompareResult where
  /-- Whether the first argument is less. -/
  | less (answer : Bool)
  /-- The comparison, as a 32-bit integer. -/
  | threeWay (answer : Int32)
deriving DecidableEq

/-- A comparison answer of a type that cannot be read. -/
def badAnswer (expected : String) (answer : Value) : Error :=
  typeErrorIn "Comparator" expected answer.typeName

namespace CompareResult

/-- Reads an answer. -/
def interpret (answer : Value) : Except Error CompareResult :=
  match answer with
  | .bool b => .ok (.less b)
  | .num n => .ok (.threeWay n.intValue)
  | v => .error (badAnswer "boolean or number" v)

/-- An answer as written for debugging. -/
def text : CompareResult → String
  | .less b => "Less(" ++ toString b ++ ")"
  | .threeWay n => "ThreeWay(" ++ toString n.toInt ++ ")"

end CompareResult

/-- A comparison of two values that may fail. -/
abbrev Comparison (σ : Type) := Value → Value → Eval σ Int

namespace Function

variable {σ : Type}

/-- Compares two values with a function. -/
def compareWith (host : Host σ) (f : Function) : Comparison σ := fun a b => do
  let answer ← f.invoke host [a, b]
  match CompareResult.interpret answer with
  | .error e => throw e
  | .ok (.less true) => pure (-1)
  | .ok (.less false) =>
    let reverse ← f.invoke host [b, a]
    pure (if reverse.truthy then 1 else 0)
  | .ok (.threeWay n) => pure n.toInt

/-- Compares two values with a function that tells "less" by any value. -/
def predicateCompare (host : Host σ) (less : Function) : Comparison σ := fun a b => do
  let answer ← less.invoke host [a, b]
  if answer.truthy then pure (-1)
  else
    let reverse ← less.invoke host [b, a]
    pure (if reverse.truthy then 1 else 0)

/-- Compares two values with a function that answers numbers. -/
def threeWayCompare (host : Host σ) (f : Function) : Comparison σ := fun a b => do
  let answer ← f.invoke host [a, b]
  match answer with
  | .num n => pure n.intValue.toInt
  | v => throw (badAnswer "number" v)

end Function

end ValueCore
