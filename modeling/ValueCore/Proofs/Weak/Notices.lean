import ValueCore.Weak.Queue
/-!
# Notices of referents

What a poll finds, and what is posted when a holder lets go.  A referent is alive as long as it
is held, and the notice of one that is alive no more is in the queue from then on until it is
polled.
-/

namespace ValueCore.Weak

/-! ## Polls -/

namespace Queue

variable {q : Queue}

theorem poll_of_isEmpty (h : q.isEmpty = true) : q.poll = (none, q) := by
  rw [isEmpty, List.isEmpty_iff] at h
  rw [poll, h]

/-- A poll takes the oldest of the pending notices. -/
theorem poll_of_pending (h : q.isEmpty = false) :
    ∃ n rest, q.notices = n :: rest ∧ q.poll = (some n, ⟨rest⟩) := by
  cases notices : q.notices with
  | nil => simp [isEmpty, notices] at h
  | cons n rest => exact ⟨n, rest, rfl, by rw [poll, notices]⟩

theorem drain_eq (q : Queue) : q.drain = {} := congrArg Queue.mk q.notices_drain

end Queue

/-! ## Holders -/

namespace Holders

variable {h : Holders} {r r' : Referent}

theorem alive_iff : h.alive r = true ↔ r ∈ h.held := by
  rw [alive, decide_eq_true_iff]

theorem alive_hold : (h.hold r').alive r = true ↔ r = r' ∨ h.alive r = true := by
  rw [alive_iff, alive_iff, hold, List.mem_cons]

theorem held_release : (h.release r).held = h.held.erase r := by
  rw [release]
  split
  · dsimp only
    split
    · rfl
    · rfl
  · next free => exact (List.erase_of_not_mem free).symm

/-- Notices stay in the queue when a holder lets go. -/
theorem mem_notices_release {n : Nat} (mem : n ∈ h.queue.notices) :
    n ∈ (h.release r).queue.notices := by
  rw [release]
  split
  · dsimp only
    split
    · exact mem
    · exact List.mem_append_left _ mem
  · exact mem

/-- A referent that loses its last holder has posted its notice. -/
theorem notice_mem_release (before : h.alive r' = true)
    (after : (h.release r).alive r' = false) :
    r'.notice ∈ (h.release r).queue.notices := by
  rw [alive_iff] at before
  rw [← Bool.not_eq_true, alive_iff, held_release] at after
  obtain rfl : r' = r := Decidable.byContradiction fun other =>
    after ((List.mem_erase_of_ne other).mpr before)
  rw [release, if_pos before]
  dsimp only
  rw [if_neg after]
  exact List.mem_append_right _ (List.mem_singleton_self _)

end Holders

end ValueCore.Weak
