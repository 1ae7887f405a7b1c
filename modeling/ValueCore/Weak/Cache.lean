import ValueCore.Weak.Queue
/-!
# Sweeping a weak cache

A cache maps keys to weak references.  A reference whose referent is gone is
*cleared* and leaves a dead entry behind.  A sweep looks for dead entries only if
a notice is pending.  It drains the queue, collects the entries that are cleared
(`collectCleared`) and then removes each of them on the condition that the key
still has that very reference (`removeIfSame`).  An entry that was refreshed in
between therefore stays.

Whether a reference is cleared may change as referents go.  So the two questions
that a sweep asks about references are an argument, `RefOps`.
-/

namespace ValueCore.Weak

/-- What a sweep asks about references. -/
structure RefOps (R : Type) where
  /-- Whether the referent is gone. -/
  cleared : R → Bool
  /-- Whether two handles are the same reference. -/
  same : R → R → Bool

/-- Keys with their references, each key once. -/
abbrev Cache (K R : Type) := List (K × R)

namespace Cache

variable {K R : Type} [DecidableEq K]

/-- The reference of a key. -/
def get? (c : Cache K R) (k : K) : Option R := List.lookup k c

/-- Gives a key a reference.  A key that is present keeps its place. -/
def put (c : Cache K R) (k : K) (r : R) : Cache K R :=
  match c with
  | [] => [(k, r)]
  | e :: rest => if e.1 = k then (k, r) :: rest else e :: put rest k r

/-- Takes a key out. -/
def drop (c : Cache K R) (k : K) : Cache K R := c.filter fun e => e.1 ≠ k

/-- The entries whose references are cleared. -/
def collectCleared (ops : RefOps R) (c : Cache K R) : List (K × R) :=
  c.filter fun e => ops.cleared e.2

/-- Takes out a key if it still has the reference `stale`, and tells whether it
did. -/
def removeIfSame (ops : RefOps R) (c : Cache K R) (k : K) (stale : R) : Bool × Cache K R :=
  match c.get? k with
  | some r => if ops.same r stale then (true, c.drop k) else (false, c)
  | none => (false, c)

/-- Takes out the collected entries that are unchanged, and counts them. -/
def removeCleared (ops : RefOps R) (c : Cache K R) : List (K × R) → Nat × Cache K R
  | [] => (0, c)
  | e :: rest =>
    let step := removeIfSame ops c e.1 e.2
    let later := removeCleared ops step.2 rest
    (step.1.toNat + later.1, later.2)

/-- One sweep: the number of entries removed, the queue and the cache after it.  Nothing
happens unless a notice is pending. -/
def sweep (ops : RefOps R) (q : Queue) (c : Cache K R) : Nat × Queue × Cache K R :=
  match q.poll with
  | (none, q') => (0, q', c)
  | (some _, q') =>
    let done := removeCleared ops c (collectCleared ops c)
    (done.1, q'.drain, done.2)

end Cache

end ValueCore.Weak
