import ValueCore.Function.CallSite
/-!
# Filling a slot

`Slot.getOrPopulate` runs `populate` between its look at the slot and its attempt to fill it, and
in between the slot may change in any way: it may be filled and emptied again, also by another
call of the same operation.  Whatever happens, the slot ends with the snapshot that is given out
(`getOrPopulate_settles`).

Which snapshot that is depends on nothing but the slot when the call starts and the slot that
`populate` leaves.  That it is the same allocation takes more, since an allocation is a number:
no number may be given out twice.  It is not as long as the slot is touched by its own operations
only (`Orderly`).  What such a computation leaves in the slot was there before or is new
(`Since`).
-/

namespace ValueCore.Slot

/-! ## What can happen to a slot -/

/-- A computation that does to the slot only what the operations on slots do, by their atomic
steps. -/
inductive Orderly : {α : Type} → StateM Slot α → Prop where
  | pure {α : Type} (a : α) : Orderly (pure a)
  | bind {α β : Type} {x : StateM Slot α} {f : α → StateM Slot β} (first : Orderly x)
      (next : ∀ a, Orderly (f a)) : Orderly (x >>= f)
  | load : Orderly load
  | store (table : MethodTable) : Orderly (store table)
  | clear : Orderly clear
  | extend (key : TypeKey) (f : Function) : Orderly (extend key f)
  /-- A table is put into the slot if that is empty. -/
  | install (table : MethodTable) : Orderly (snapshot table >>= installIfEmpty)

namespace Orderly

/-- A type may be resolved by further operations on the slot. -/
theorem resolve {target : Value} {resolver : TypeKey → StateM Slot (Option Function)}
    (h : ∀ key, Orderly (resolver key)) : Orderly (Slot.resolve target resolver) := by
  rw [Slot.resolve]
  split
  · exact .pure none
  · next key _ =>
    refine .bind .load fun seen => ?_
    split
    · next hit _ => exact .pure (some hit)
    · refine .bind (h key) fun answer => ?_
      cases answer with
      | none => exact .pure none
      | some f => exact .bind (.extend key f) fun _ => .pure (some f)

/-- A table may be built by further operations on the slot. -/
theorem getOrPopulate {populate : StateM Slot MethodTable} (h : Orderly populate) :
    Orderly (Slot.getOrPopulate populate) := by
  rw [Slot.getOrPopulate]
  refine .bind .load fun seen => ?_
  cases seen with
  | none => exact .bind h fun table => .install table
  | some found => exact .pure found

/-- Other callers may go on by a step. -/
theorem advance (resolver : TypeKey → Option Function) (task : CallSite.Task) :
    Orderly (task.advance resolver) := by
  cases task with
  | start call =>
    cases call with
    | resolve target =>
      rw [CallSite.Task.advance]
      split
      · exact .pure _
      · refine .bind .load fun seen => ?_
        split <;> exact .pure _
    | populate table =>
      refine .bind .load fun seen => ?_
      cases seen <;> exact .pure _
    | store table => exact .bind (.store table) fun _ => .pure _
    | clear => exact .bind .clear fun _ => .pure _
  | missed target key =>
    rw [CallSite.Task.advance]
    split <;> exact .pure _
  | extending target key f => exact .bind (.extend key f) fun _ => .pure _
  | built table =>
    rw [CallSite.Task.advance, ← bind_assoc]
    exact .bind (.install table) fun _ => .pure _
  | _ => exact .pure _

end Orderly

/-! ## Numbers of snapshots -/

/-- The number of the snapshot in the slot was given out. -/
def Fresh (s : Slot) : Prop := ∀ x, s.current? = some x → x.id < s.nextId

/-- The snapshot in the slot `t` was in the slot `s` before, or was made since then. -/
structure Since (s t : Slot) : Prop where
  le : s.nextId ≤ t.nextId
  kept_or_new : ∀ x, t.current? = some x →
    s.current? = some x ∨ s.nextId ≤ x.id ∧ x.id < t.nextId

namespace Since

variable {s t u : Slot}

theorem refl (s : Slot) : Since s s := ⟨Nat.le_refl _, fun _ here => .inl here⟩

theorem trans (h : Since s t) (h' : Since t u) : Since s u := by
  refine ⟨Nat.le_trans h.le h'.le, fun x here => ?_⟩
  rcases h'.kept_or_new x here with before | ⟨low, high⟩
  · exact (h.kept_or_new x before).imp_right fun new =>
      ⟨new.1, Nat.lt_of_lt_of_le new.2 h'.le⟩
  · exact .inr ⟨Nat.le_trans h.le low, high⟩

/-- A snapshot that was made just now is in the slot. -/
theorem made (s : Slot) (table : MethodTable) :
    Since s ⟨some ⟨s.nextId, table⟩, s.nextId + 1⟩ := by
  refine ⟨Nat.le_succ _, fun x here => .inr ?_⟩
  cases here
  exact ⟨Nat.le_refl _, Nat.lt_succ_self _⟩

theorem fresh (h : Since s t) (fresh : s.Fresh) : t.Fresh := by
  intro x here
  rcases h.kept_or_new x here with before | new
  · exact Nat.lt_of_lt_of_le (fresh x before) h.le
  · exact new.2

/-- A number stands for one snapshot, whenever that is in the slot. -/
theorem eq_of_id (h : Since s t) (fresh : s.Fresh) {x y : Snapshot} (hx : s.current? = some x)
    (hy : t.current? = some y) (same : x.id = y.id) : x = y := by
  rcases h.kept_or_new y hy with before | ⟨new, -⟩
  · exact Option.some.inj (hx.symm.trans before)
  · exact absurd (fresh x hx) (Nat.not_lt.mpr (same ▸ new))

end Since

/-- Orderly computations number their snapshots as they come. -/
theorem Orderly.since {α : Type} {x : StateM Slot α} (h : Orderly x) (s : Slot) :
    Since s (x.run s).2 := by
  induction h generalizing s with
  | pure | load => exact .refl s
  | bind _ _ first next => exact (first s).trans (next _ _)
  | store table => exact .made s table
  | extend key f => exact .made s _
  | clear => exact ⟨Nat.le_refl _, fun x here => by cases here⟩
  | install table =>
    obtain ⟨current?, n⟩ := s
    cases current? with
    | none => exact .made _ table
    | some winner => exact ⟨Nat.le_succ n, fun x here => .inl here⟩

/-! ## Filling -/

section Populate

variable {s : Slot} {populate : StateM Slot MethodTable} {x y : Snapshot}

/-- Nothing is built for a slot that is filled. -/
theorem run_getOrPopulate_of_filled (populate : StateM Slot MethodTable)
    (filled : s.current? = some x) : (getOrPopulate populate).run s = (x, s) := by
  obtain ⟨current?, n⟩ := s
  cases filled
  rfl

theorem run_getOrPopulate_of_empty (empty : s.current? = none) :
    (getOrPopulate populate).run s =
      ((snapshot (populate.run s).1 >>= installIfEmpty).run (populate.run s).2) := by
  obtain ⟨current?, n⟩ := s
  cases empty
  rfl

/-- A snapshot that was put into the slot in the meantime wins. -/
theorem run_install_of_filled (table : MethodTable) (filled : s.current? = some x) :
    (snapshot table >>= installIfEmpty).run s = (x, { s with nextId := s.nextId + 1 }) := by
  obtain ⟨current?, n⟩ := s
  cases filled
  rfl

theorem run_install_of_empty (table : MethodTable) (empty : s.current? = none) :
    (snapshot table >>= installIfEmpty).run s =
      (⟨s.nextId, table⟩, ⟨some ⟨s.nextId, table⟩, s.nextId + 1⟩) := by
  obtain ⟨current?, n⟩ := s
  cases empty
  rfl

/-- What is given out is in the slot. -/
theorem current?_getOrPopulate (s : Slot) (populate : StateM Slot MethodTable) :
    ((getOrPopulate populate).run s).2.current? = some ((getOrPopulate populate).run s).1 := by
  cases before : s.current? with
  | some x => rw [run_getOrPopulate_of_filled populate before, before]
  | none =>
    rw [run_getOrPopulate_of_empty before]
    cases left : (populate.run s).2.current? with
    | some winner => rw [run_install_of_filled _ left, left]
    | none => rw [run_install_of_empty _ left]

theorem holds_iff (here : s.current? = some x) : s.holds y = true ↔ x.id = y.id := by
  rw [holds, here, Option.any_some, beq_iff_eq]

/-- The number of the table that was built is that of the snapshot in the slot only if the slot
was left empty. -/
theorem holds_built_iff (fresh : s.Fresh) (orderly : Orderly populate)
    (empty : s.current? = none) :
    ((getOrPopulate populate).run s).2.holds ⟨(populate.run s).2.nextId, (populate.run s).1⟩ =
      true ↔ (populate.run s).2.current? = none := by
  rw [run_getOrPopulate_of_empty empty]
  cases left : (populate.run s).2.current? with
  | some winner =>
    -- The winner was there before the new snapshot got its number.
    have before : winner.id < (populate.run s).2.nextId :=
      (orderly.since s).fresh fresh winner left
    rw [run_install_of_filled _ left]
    exact (holds_iff left).trans
      (iff_of_false (Nat.ne_of_lt before) (Option.some_ne_none winner))
  | none =>
    rw [run_install_of_empty _ left]
    exact (holds_iff rfl).trans (iff_of_true rfl rfl)

/-- The slot while a table is built comes before the slot in the end. -/
theorem since_getOrPopulate {α : Type} (first : StateM Slot α)
    {rest : α → StateM Slot MethodTable} (onward : ∀ a, Orderly (rest a))
    (empty : s.current? = none) :
    Since (first.run s).2 ((getOrPopulate (first >>= rest)).run s).2 := by
  have meantime : Since (first.run s).2 ((first >>= rest).run s).2 := (onward _).since _
  rw [run_getOrPopulate_of_empty empty]
  exact meantime.trans ((Orderly.install _).since _)

/-- The slot ends with the snapshot that is given out, whatever happens to it while a table is
built.  If the slot is filled when the call starts, nothing is built and nothing changes.  If
not, the snapshot is the one that was left in the slot, and the table that was built is let go.
Only if the slot was left empty does the table that was built get into it.

If all that happens to the slot are the operations on slots, these snapshots are told apart by
their numbers: the slot holds the new one only if it was left empty, and of the snapshots that
it had at any time in the meantime it holds the one that is given out and no other. -/
theorem getOrPopulate_settles (s : Slot) (populate : StateM Slot MethodTable) :
    let built := (populate.run s).1
    let left := (populate.run s).2
    let got := ((getOrPopulate populate).run s).1
    let after := ((getOrPopulate populate).run s).2
    after.current? = some got ∧
      (∀ x, s.current? = some x → got = x ∧ after = s) ∧
      (s.current? = none → ∀ x, left.current? = some x →
        got = x ∧ after = { left with nextId := left.nextId + 1 }) ∧
      (s.current? = none → left.current? = none → got = ⟨left.nextId, built⟩) ∧
      (s.Fresh → Orderly populate →
        after.Fresh ∧
        (s.current? = none →
          (after.holds ⟨left.nextId, built⟩ = true ↔ left.current? = none) ∧
          ∀ (α : Type) (first : StateM Slot α) (rest : α → StateM Slot MethodTable),
            Orderly first → (∀ a, Orderly (rest a)) → populate = first >>= rest →
              ∀ x, (first.run s).2.current? = some x → (after.holds x = true ↔ got = x))) := by
  intro built left got after
  have held : after.current? = some got := current?_getOrPopulate s populate
  refine ⟨held, ?_, ?_, ?_, ?_⟩
  · intro x filled
    have run := run_getOrPopulate_of_filled populate filled
    exact ⟨congrArg Prod.fst run, congrArg Prod.snd run⟩
  · intro empty x winner
    have run := (run_getOrPopulate_of_empty empty).trans (run_install_of_filled built winner)
    exact ⟨congrArg Prod.fst run, congrArg Prod.snd run⟩
  · intro empty left_empty
    have run := (run_getOrPopulate_of_empty empty).trans (run_install_of_empty built left_empty)
    exact congrArg Prod.fst run
  · intro fresh orderly
    refine ⟨(orderly.getOrPopulate.since s).fresh fresh, fun empty =>
      ⟨holds_built_iff fresh orderly empty, ?_⟩⟩
    rintro α first rest start onward rfl x here
    have since : Since (first.run s).2 after := since_getOrPopulate first onward empty
    rw [holds_iff held]
    constructor
    · intro same
      exact (since.eq_of_id ((start.since s).fresh fresh) here held same.symm).symm
    · intro same
      rw [same]

end Populate

/-- While a table is built for an empty slot, a nested call fills the slot, another caller empties
it, and a type is resolved.  The snapshot with the resolved type is given out.  Neither that of
the nested call nor that of the table that was built is in the slot. -/
theorem getOrPopulate_settles_nested :
    let early : Snapshot := ⟨0, {}⟩
    let nested : StateM Slot Snapshot := getOrPopulate (pure {})
    let rest : StateM Slot MethodTable := do
      let _ ← (CallSite.Task.start .clear).advance fun _ => none
      let _ ← resolve (.str 0 "a") fun _ => pure (some (.foreign 1 "string-impl" 0))
      pure {}
    let got := ((getOrPopulate (nested >>= fun _ => rest)).run {}).1
    let after := ((getOrPopulate (nested >>= fun _ => rest)).run {}).2
    (nested.run {}).2.current? = some early ∧
      got = ⟨1, ⟨[(.string, .foreign 1 "string-impl" 0)]⟩⟩ ∧
      after = ⟨some got, 3⟩ ∧ after.holds early = false ∧ after.holds ⟨2, {}⟩ = false := by
  intro early nested rest got after
  have inside : Orderly nested := .getOrPopulate (.pure _)
  have onward : Orderly rest :=
    .bind (.advance _ _) fun _ => .bind (.resolve fun _ => .pure _) fun _ => .pure _
  have left : ((nested >>= fun _ => rest).run {}).2 =
      ⟨some ⟨1, ⟨[(.string, .foreign 1 "string-impl" 0)]⟩⟩, 2⟩ := rfl
  have fresh : Fresh {} := by
    intro x here
    cases here
  obtain ⟨-, -, loses, -, numbers⟩ := getOrPopulate_settles {} (nested >>= fun _ => rest)
  obtain ⟨discarded, moments⟩ := (numbers fresh (.bind inside fun _ => onward)).2 rfl
  have winner : got = ⟨1, ⟨[(.string, .foreign 1 "string-impl" 0)]⟩⟩ :=
    (loses rfl _ (congrArg Slot.current? left)).1
  have last : after = ⟨some got, 3⟩ := by
    rw [winner]
    exact (loses rfl _ (congrArg Slot.current? left)).2
  refine ⟨rfl, winner, last, ?_, ?_⟩
  · have gone : after.holds early = true ↔ got = early :=
      moments Snapshot nested _ inside (fun _ => onward) rfl early rfl
    rw [← Bool.not_eq_true, gone, winner]
    simp [early]
  · have lost : after.holds ⟨2, {}⟩ = true ↔ _ := discarded
    rw [← Bool.not_eq_true, lost, left]
    exact Option.some_ne_none _

end ValueCore.Slot
