import Mathlib.Data.List.Dedup
import ValueCore.Proofs.Keyword.Interned
/-!
# Garbage in the keyword table

Every dead entry has a notice of its own pending (`Session.Sound.noticed`), so there are never
more dead entries than notices.  A sweep may therefore look at the queue alone to see that
there is nothing to do, and it may throw all notices away at once.  A replaced entry leaves its
notice behind, which only makes a later sweep look in vain.

After a sweep, and after interning with the sweep on, the table is `Tidy`: it has the live
keywords and nothing else.
-/

namespace ValueCore.Keyword.Session

variable {s : Session} {k : Keyword}

/-- The table has one entry for each keyword that has a handle, and no other entries. -/
def Tidy (s : Session) : Prop :=
  s.table.entries.Perm (s.handles.dedup.map fun k => (k.symbol, k))

theorem Sound.tidy (h : s.Sound) (alive : ∀ e ∈ s.table.entries, s.table.alive e.2 = true) :
    s.Tidy := by
  have left : s.table.entries.Nodup := List.Nodup.of_map _ h.distinct
  have right : (s.handles.dedup.map fun k => (k.symbol, k)).Nodup :=
    (List.nodup_dedup s.handles).map fun k l same => congrArg Prod.snd same
  refine (List.perm_ext_iff_of_nodup left right).mpr fun e => ?_
  rw [List.mem_map]
  constructor
  · intro mem
    refine ⟨e.2, List.mem_dedup.mpr ((h.alive_iff mem).mp (alive e mem)), ?_⟩
    rw [h.symbol_eq mem]
  · rintro ⟨k, handle, rfl⟩
    exact h.entered k (List.mem_dedup.mp handle)

/-- No entry is dead after a sweep. -/
theorem Sound.tidy_sweep (h : s.Sound) : Tidy { s with table := s.table.sweep.2 } :=
  h.sweep.tidy fun _ mem => (h.mem_sweep.mp mem).2

theorem Tidy.alive (h : s.Sound) (tidy : s.Tidy) {e : Symbol × Keyword}
    (mem : e ∈ s.table.entries) : s.table.alive e.2 = true := by
  refine (h.alive_iff mem).mpr ?_
  obtain ⟨k, handle, rfl⟩ := List.mem_map.mp (tidy.mem_iff.mp mem)
  exact List.mem_dedup.mp handle

/-- Interning after a sweep adds a live entry, if any. -/
theorem Sound.tidy_intern (h : s.Sound) (on : s.table.sweepOnIntern = true)
    (spelling : Spelling) : Tidy (s.act (.intern spelling)) := by
  have swept : s.swept = { s with table := s.table.sweep.2 } := by
    rw [Session.swept, if_pos on]
  have before : ∀ e ∈ s.swept.table.entries, s.swept.table.alive e.2 = true := by
    intro e mem
    refine Tidy.alive h.swept ?_ mem
    rw [swept]
    exact h.tidy_sweep
  refine (h.intern spelling).tidy ?_
  rcases act_intern s spelling with ⟨k, -, step⟩ | ⟨-, step⟩
  · rw [step]
    exact fun e mem => Weak.Holders.alive_hold.mpr (Or.inr (before e mem))
  · rw [step]
    intro e mem
    refine Weak.Holders.alive_hold.mpr ?_
    rcases (Weak.Cache.mem_put h.swept.distinct).mp mem with rfl | ⟨old, -⟩
    · exact Or.inl rfl
    · exact Or.inr (before e old)

/-- The dead entries have different cells, and each has posted its notice. -/
theorem Sound.countP_dead_le (h : s.Sound) :
    (s.table.entries.countP fun e => !s.table.alive e.2) ≤ s.table.holders.queue.length := by
  let dead := s.table.entries.filter fun e => !s.table.alive e.2
  have entry : ∀ e ∈ dead, e ∈ s.table.entries := fun e mem => (List.mem_filter.mp mem).1
  have cells : (dead.map fun e => e.2.cell).Nodup := by
    refine List.Nodup.map_on (fun e mem e' mem' => h.apart e (entry e mem) e' (entry e' mem')) ?_
    exact (List.Nodup.of_map _ h.distinct).filter _
  have posted : (dead.map fun e => e.2.cell) ⊆ s.table.holders.queue.notices := by
    intro cell mem
    obtain ⟨e, here, rfl⟩ := List.mem_map.mp mem
    exact h.noticed e (entry e here) (by simpa using (List.mem_filter.mp here).2)
  calc (s.table.entries.countP fun e => !s.table.alive e.2)
      = (dead.map fun e => e.2.cell).length := by
        rw [List.length_map, List.countP_eq_length_filter]
    _ ≤ s.table.holders.queue.notices.length := (List.subperm_of_subset cells posted).length_le

/-- At any point of any session there are at most as many dead entries as pending notices,
and none if no notice is pending.  After a sweep, and after interning with the sweep on, the
live keywords are all that is in the table. -/
theorem dead_le_notices (actions : List Action) :
    let s := run actions
    (s.table.entries.countP fun e => !s.table.alive e.2) ≤ s.table.holders.queue.length ∧
      (s.table.holders.queue.isEmpty = true →
        ∀ e ∈ s.table.entries, s.table.alive e.2 = true) ∧
      (s.act .sweep).Tidy ∧
      (s.table.sweepOnIntern = true → ∀ spelling, (s.act (.intern spelling)).Tidy) := by
  intro s
  have h : s.Sound := sound_run actions
  exact ⟨h.countP_dead_le, fun empty _ => h.alive_of_isEmpty empty, h.tidy_sweep, h.tidy_intern⟩

/-- A dead entry is replaced while the sweep is off, so its notice is left over.  The next
sweep finds it and has nothing to remove. -/
theorem dead_le_notices_replaced :
    let s := run [.setSweep false, .intern (.name "a"), .drop 0, .intern (.name "a")]
    (s.table.entries.countP fun e => !s.table.alive e.2) ≤ 1 ∧
      s.table.holders.queue.notices = [0] ∧ (s.act .sweep).Tidy := by
  intro s
  have laws := dead_le_notices
    [.setSweep false, .intern (.name "a"), .drop 0, .intern (.name "a")]
  exact ⟨laws.1, rfl, laws.2.2.1⟩

end ValueCore.Keyword.Session
