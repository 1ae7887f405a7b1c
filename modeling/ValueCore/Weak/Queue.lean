/-!
# Clearance notices

A *referent* is something that is kept alive by its holders and known to a cache
by weak references.  When the last holder lets go, the referent posts a notice.
Notices wait in a queue, first in first out.  Their payload only tells who
posted.
-/

namespace ValueCore.Weak

/-- Pending notices, oldest first. -/
structure Queue where
  /-- The payloads. -/
  notices : List Nat := []
deriving DecidableEq

namespace Queue

/-- Posts a notice. -/
def enqueue (q : Queue) (notice : Nat) : Queue := ⟨q.notices ++ [notice]⟩

/-- Takes the oldest notice, if there is one. -/
def poll (q : Queue) : Option Nat × Queue :=
  match q.notices with
  | [] => (none, q)
  | n :: rest => (some n, ⟨rest⟩)

/-- Polls until a poll finds the queue empty. -/
def drain (q : Queue) : Queue :=
  match q with
  | ⟨[]⟩ => ⟨[]⟩
  | ⟨_ :: rest⟩ => drain ⟨rest⟩
termination_by q.notices.length

/-- The number of pending notices. -/
def length (q : Queue) : Nat := q.notices.length

/-- No notice is pending. -/
def isEmpty (q : Queue) : Bool := q.notices.isEmpty

@[simp] theorem notices_enqueue (q : Queue) (n : Nat) :
    (q.enqueue n).notices = q.notices ++ [n] := rfl

@[simp] theorem notices_drain (q : Queue) : q.drain.notices = [] := by
  fun_induction drain q with
  | case1 => rfl
  | case2 _ _ ih => exact ih

end Queue

/-! ## Holders -/

/-- Something that is alive while it is held. -/
structure Referent where
  /-- Tells referents apart. -/
  cell : Nat
  /-- The notice it posts when it goes. -/
  notice : Nat
deriving DecidableEq

/-- Who is held, once for each holder, and the queue that notices go to. -/
structure Holders where
  /-- The held referents. -/
  held : List Referent := []
  /-- The queue of notices. -/
  queue : Queue := {}

namespace Holders

/-- Whether a referent has a holder. -/
def alive (h : Holders) (r : Referent) : Bool := r ∈ h.held

/-- One more holder for a referent. -/
def hold (h : Holders) (r : Referent) : Holders := { h with held := r :: h.held }

/-- One holder fewer.  A referent that loses its last holder posts its notice. -/
def release (h : Holders) (r : Referent) : Holders :=
  if r ∈ h.held then
    let held := h.held.erase r
    if r ∈ held then { h with held } else { held, queue := h.queue.enqueue r.notice }
  else h

end Holders

end ValueCore.Weak
