import ValueCore.Error
import ValueCore.Function.Arity
/-!
# Calling functions

A function is called with positional arguments (`Function.invoke`) or with a whole
argument list (`Function.applyTo`).  A native function checks the number of
arguments and does not tell the two apart.  A foreign callable has two entry points
of its own.  A decorated function knows nothing of the counts that its target
supports, so it always hands on the whole list.

What native functions and foreign callables do is given by a `Host`, over a state
that calls may change.  The state survives a failure: the effects of a call are not
undone when it fails.
-/

namespace ValueCore

/-- A computation that may change the state and may fail, keeping the state. -/
abbrev Eval (σ : Type) := ExceptT Error (StateM σ)

/-- What the labels of functions stand for. -/
structure Host (σ : Type) where
  /-- The bodies of native functions. -/
  native : Nat → List Value → Eval σ Value
  /-- The positional entry points of foreign callables. -/
  invoke : Nat → List Value → Eval σ Value
  /-- The entry points of foreign callables for whole argument lists. -/
  applyTo : Nat → List Value → Eval σ Value

namespace Function

variable {σ : Type}

/-- Calls a native function, if it supports the number of arguments. -/
def callNative (host : Host σ) (info : NativeInfo) (args : List Value) : Eval σ Value :=
  if info.arity.accepts args.length then host.native info.label args
  else throw (.arity args.length info.name none)

/-- Calls a function with a whole argument list. -/
def applyTo (host : Host σ) (f : Function) (args : List Value) : Eval σ Value :=
  match f with
  | .native _ info _ => callNative host info args
  | .callable _ _ label _ => host.applyTo label args
  | .decorated _ target _ => target.applyTo host args

/-- Calls a function with positional arguments. -/
def invoke (host : Host σ) (f : Function) (args : List Value) : Eval σ Value :=
  match f with
  | .native _ info _ => callNative host info args
  | .callable _ _ label _ => host.invoke label args
  | .decorated _ target _ => target.applyTo host args

/-- The minimum number of arguments, where that is declared.  A decorated function
declares `0`. -/
def required? : Function → Option Nat
  | .native _ info _ => info.arity.required?
  | .callable _ _ _ _ => none
  | .decorated _ _ _ => some 0

/-- Whether a function has a call-site cache of its own. -/
def hasCache : Function → Bool
  | .native _ info _ => info.hasCache
  | _ => false

end Function

end ValueCore
