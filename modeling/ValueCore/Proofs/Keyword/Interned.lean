import Mathlib.Data.List.Perm.Basic
import ValueCore.Keyword.Session
import ValueCore.Proofs.Text.UnitOrder
import ValueCore.Proofs.Weak.Cache
import ValueCore.Value.Equivalence
/-!
# One live keyword for a symbol

Handles are equal when their cells are, so the table must never let two cells of one symbol
live.  `Session.Sound` is what every action keeps.  The table is a finite map in which every
live keyword is entered under its symbol, and every entry is a keyword made for the symbol it
is entered under.  Cells belong to one entry each.  A cell that died with its entry still there
has a notice pending.

The last of these is what makes sweeps safe to skip: an empty queue means that there is nothing
to sweep (`Sound.alive_of_isEmpty`).
-/

namespace ValueCore.Keyword

namespace Session

/-- What holds of a session between two actions. -/
structure Sound (s : Session) : Prop where
  /-- A cell is held once for each of its handles. -/
  held : s.table.holders.held.Perm (s.handles.map referent)
  distinct : s.table.entries.Distinct
  /-- A keyword with a handle is entered under its symbol. -/
  entered : ∀ k ∈ s.handles, (k.symbol, k) ∈ s.table.entries
  /-- An entry is a keyword made for the symbol that it is entered under. -/
  made : ∀ e ∈ s.table.entries, e.2 = Keyword.ofSymbol e.2.cell e.1
  /-- Cells with an entry were given out. -/
  given : ∀ e ∈ s.table.entries, e.2.cell < s.table.nextCell
  /-- No two entries have one cell. -/
  apart : ∀ e ∈ s.table.entries, ∀ e' ∈ s.table.entries, e.2.cell = e'.2.cell → e = e'
  /-- A dead entry has a notice pending. -/
  noticed : ∀ e ∈ s.table.entries, s.table.alive e.2 = false →
    e.2.cell ∈ s.table.holders.queue.notices

theorem sound_empty : Sound {} where
  held := .nil
  distinct := List.nodup_nil
  entered := nofun
  made := nofun
  given := nofun
  apart := nofun
  noticed := nofun

section Sound

variable {s : Session} {k l : Keyword} {symbol : Symbol} {e : Symbol × Keyword}

/-- An entry is alive if there is a handle on its keyword. -/
theorem Sound.alive_iff (h : s.Sound) (mem : e ∈ s.table.entries) :
    s.table.alive e.2 = true ↔ e.2 ∈ s.handles := by
  rw [Table.alive, Weak.Holders.alive_iff, h.held.mem_iff]
  constructor
  · intro here
    obtain ⟨l, handle, same⟩ := List.mem_map.mp here
    have cells : l.cell = e.2.cell := congrArg Weak.Referent.cell same
    rw [← h.apart _ (h.entered l handle) e mem cells]
    exact handle
  · exact List.mem_map_of_mem

theorem Sound.symbol_eq (h : s.Sound) (mem : e ∈ s.table.entries) : e.2.symbol = e.1 := by
  rw [h.made e mem]
  rfl

/-- A look-up finds the keyword of the symbol that has a handle. -/
theorem Sound.find?_eq_some_iff (h : s.Sound) :
    s.table.find? symbol = some k ↔ k ∈ s.handles ∧ k.symbol = symbol := by
  rw [Table.find?]
  constructor
  · intro found
    split at found
    · next l entry =>
      split at found
      · next alive =>
        cases found
        have mem := Weak.Cache.mem_of_get? entry
        exact ⟨(h.alive_iff mem).mp alive, h.symbol_eq mem⟩
      · cases found
    · cases found
  · rintro ⟨handle, rfl⟩
    have mem := h.entered k handle
    simp only [Weak.Cache.get?_of_mem h.distinct mem, (h.alive_iff mem).mpr handle, if_true]

/-- Two keywords with handles are one if their symbols are. -/
theorem Sound.eq_of_symbol (h : s.Sound) (handle : k ∈ s.handles) (handle' : l ∈ s.handles)
    (symbols : k.symbol = l.symbol) : k = l := by
  have found := h.find?_eq_some_iff.mpr ⟨handle, symbols⟩
  rw [h.find?_eq_some_iff.mpr ⟨handle', rfl⟩] at found
  exact (Option.some.inj found).symm

/-- If no notice is pending, all entries are alive. -/
theorem Sound.alive_of_isEmpty (h : s.Sound) (empty : s.table.holders.queue.isEmpty = true)
    (mem : e ∈ s.table.entries) : s.table.alive e.2 = true := by
  rw [Weak.Queue.isEmpty, List.isEmpty_iff] at empty
  by_contra dead
  have pending := h.noticed e mem (Bool.eq_false_iff.mpr dead)
  rw [empty] at pending
  cases pending

/-! ## Sweeps -/

theorem same_self (t : Table) (k : Keyword) : t.refOps.same k k = true :=
  beq_self_eq_true k.cell

/-- A sweep keeps the entries that are alive. -/
theorem Sound.entries_sweep (h : s.Sound) :
    s.table.sweep.2.entries = s.table.entries.filter fun e => s.table.alive e.2 := by
  rw [Table.sweep]
  cases notices : s.table.holders.queue.isEmpty with
  | true =>
    rw [Weak.Cache.sweep_of_isEmpty notices]
    exact (List.filter_eq_self.mpr fun e mem => h.alive_of_isEmpty notices mem).symm
  | false =>
    rw [Weak.Cache.sweep_of_pending (same_self s.table) h.distinct notices]
    refine List.filter_congr fun e _ => ?_
    rw [Table.refOps, Bool.not_not]

theorem Sound.mem_sweep (h : s.Sound) :
    e ∈ s.table.sweep.2.entries ↔ e ∈ s.table.entries ∧ s.table.alive e.2 = true := by
  rw [h.entries_sweep, List.mem_filter]

theorem Sound.sweep (h : s.Sound) : Sound { s with table := s.table.sweep.2 } where
  held := h.held
  distinct := by
    rw [h.entries_sweep]
    exact h.distinct.filter _
  entered k handle := by
    have mem := h.entered k handle
    exact h.mem_sweep.mpr ⟨mem, (h.alive_iff mem).mpr handle⟩
  made e mem := h.made e (h.mem_sweep.mp mem).1
  given e mem := h.given e (h.mem_sweep.mp mem).1
  apart e mem e' mem' := h.apart e (h.mem_sweep.mp mem).1 e' (h.mem_sweep.mp mem').1
  noticed e mem dead := by
    -- a sweep does not change who is alive
    have alive : s.table.sweep.2.alive e.2 = true := (h.mem_sweep.mp mem).2
    rw [alive] at dead
    cases dead

/-! ## Handles -/

/-- One more handle on a keyword that has one. -/
theorem Sound.keep (h : s.Sound) (handle : k ∈ s.handles) : (s.keep k).Sound where
  held := h.held.cons k.referent
  distinct := h.distinct
  entered l handle' := by
    rcases List.mem_cons.mp handle' with rfl | earlier
    · exact h.entered l handle
    · exact h.entered l earlier
  made := h.made
  given := h.given
  apart := h.apart
  noticed e mem dead := by
    refine h.noticed e mem (Bool.eq_false_iff.mpr fun alive => ?_)
    exact Bool.eq_false_iff.mp dead (Weak.Holders.alive_hold.mpr (Or.inr alive))

/-- One handle fewer. -/
theorem Sound.release (h : s.Sound) {i : Nat} (handle : s.handles[i]? = some k) :
    Sound ⟨s.table.release k, s.handles.eraseIdx i⟩ where
  held := by
    obtain ⟨inside, rfl⟩ := List.getElem?_eq_some_iff.mp handle
    have counted := ((List.getElem_cons_eraseIdx_perm inside).map referent).symm
    have fewer := (h.held.trans counted).erase s.handles[i].referent
    rw [List.map_cons, List.erase_cons_head, ← Weak.Holders.held_release] at fewer
    exact fewer
  distinct := h.distinct
  entered l mem := h.entered l (List.mem_of_mem_eraseIdx mem)
  made := h.made
  given := h.given
  apart := h.apart
  noticed e mem dead := by
    cases before : s.table.alive e.2 with
    | false => exact Weak.Holders.mem_notices_release (h.noticed e mem before)
    | true => exact Weak.Holders.notice_mem_release before dead

/-- A keyword that is made for a symbol that has no live one. -/
theorem Sound.create (h : s.Sound) (none : s.table.find? symbol = none) :
    Session.Sound ⟨(s.table.create symbol).2.hold (s.table.create symbol).1,
      (s.table.create symbol).1 :: s.handles⟩ := by
  have mem_put : ∀ e, e ∈ (s.table.create symbol).2.entries ↔
      e = (symbol, (s.table.create symbol).1) ∨ e ∈ s.table.entries ∧ e.1 ≠ symbol :=
    fun e => Weak.Cache.mem_put h.distinct
  refine ⟨h.held.cons _, h.distinct.put, ?_, ?_, ?_, ?_, ?_⟩
  · intro l handle
    refine (mem_put _).mpr ?_
    rcases List.mem_cons.mp handle with rfl | earlier
    · exact Or.inl rfl
    · refine Or.inr ⟨h.entered l earlier, ?_⟩
      rintro rfl
      rw [h.find?_eq_some_iff.mpr ⟨earlier, rfl⟩] at none
      cases none
  · intro e mem
    rcases (mem_put e).mp mem with rfl | ⟨old, -⟩
    · rfl
    · exact h.made e old
  · intro e mem
    rcases (mem_put e).mp mem with rfl | ⟨old, -⟩
    · exact Nat.lt_succ_self _
    · exact Nat.lt_succ_of_lt (h.given e old)
  · intro e mem e' mem' cells
    rcases (mem_put e).mp mem with rfl | ⟨old, -⟩
    · rcases (mem_put e').mp mem' with rfl | ⟨old', -⟩
      · rfl
      · exact absurd cells (Nat.ne_of_gt (h.given e' old'))
    · rcases (mem_put e').mp mem' with rfl | ⟨old', -⟩
      · exact absurd cells (Nat.ne_of_lt (h.given e old))
      · exact h.apart e old e' old' cells
  · intro e mem dead
    have before : ¬ (e.2.referent = (s.table.create symbol).1.referent ∨
        s.table.alive e.2 = true) := by
      intro either
      exact Bool.eq_false_iff.mp dead (Weak.Holders.alive_hold.mpr either)
    rw [not_or] at before
    rcases (mem_put e).mp mem with rfl | ⟨old, -⟩
    · exact absurd rfl before.1
    · exact h.noticed e old (Bool.eq_false_iff.mpr before.2)

/-! ## Actions -/

/-- The session in which interning looks the symbol up. -/
def swept (s : Session) : Session :=
  { s with table := if s.table.sweepOnIntern then s.table.sweep.2 else s.table }

theorem Sound.swept (h : s.Sound) : s.swept.Sound := by
  rw [Session.swept]
  split
  · exact h.sweep
  · exact h

/-- Interning gives the live keyword of the symbol or makes a new one. -/
theorem act_intern (s : Session) (spelling : Spelling) :
    (∃ k, s.swept.table.find? spelling.toSymbol = some k ∧
      s.act (.intern spelling) = s.swept.keep k) ∨
    s.swept.table.find? spelling.toSymbol = none ∧
      s.act (.intern spelling) =
        ⟨(s.swept.table.create spelling.toSymbol).2.hold
          (s.swept.table.create spelling.toSymbol).1,
          (s.swept.table.create spelling.toSymbol).1 :: s.handles⟩ := by
  rw [act, Table.intern]
  cases found : s.swept.table.find? spelling.toSymbol with
  | some k =>
    refine Or.inl ⟨k, rfl, ?_⟩
    rw [swept] at found
    simp only [found]
    rfl
  | none =>
    refine Or.inr ⟨rfl, ?_⟩
    rw [swept] at found
    simp only [found]
    rfl

theorem Sound.intern (h : s.Sound) (spelling : Spelling) :
    (s.act (.intern spelling)).Sound := by
  rcases act_intern s spelling with ⟨k, found, step⟩ | ⟨none, step⟩
  · rw [step]
    exact h.swept.keep (h.swept.find?_eq_some_iff.mp found).1
  · rw [step]
    exact h.swept.create none

/-- Every action keeps a session sound. -/
theorem Sound.act (h : s.Sound) (action : Action) : (s.act action).Sound := by
  cases action with
  | intern spelling => exact h.intern spelling
  | find symbol =>
    rw [Session.act]
    split
    · next k found => exact h.keep (h.find?_eq_some_iff.mp found).1
    · exact h
  | clone i =>
    rw [Session.act]
    split
    · next k handle => exact h.keep (List.mem_of_getElem? handle)
    · exact h
  | drop i =>
    rw [Session.act]
    split
    · next k handle => exact h.release handle
    · exact h
  | sweep => exact h.sweep
  | setSweep on => exact ⟨h.held, h.distinct, h.entered, h.made, h.given, h.apart, h.noticed⟩

/-- Every session is sound. -/
theorem sound_run (actions : List Action) : (run actions).Sound := by
  suffices from_any : ∀ s : Session, s.Sound → (actions.foldl Session.act s).Sound from
    from_any {} sound_empty
  induction actions with
  | nil => exact fun s h => h
  | cons action rest ih => exact fun s h => ih (s.act action) (h.act action)

end Sound

/-! ## Interning -/

theorem equiv_kw (k l : Keyword) : Value.equiv (.kw k) (.kw l) = k.same l := by
  simp [Value.equiv, Value.equivSharing, Value.dispatchEquiv, Value.dispatch,
    Value.structuralEquiv, Value.leafEquiv, Value.equals, Value.identical]

/-- At any point of any session the cells that are held are those of the handles, the table
has every keyword with a handle under its symbol, and so handles agree in every way just if
their symbols do.  A look-up finds the keyword of a symbol that has a handle and changes
nothing, and interning gives that keyword too. -/
theorem interning_canonical (actions : List Action) :
    let s := run actions
    s.table.holders.held.Perm (s.handles.map referent) ∧
      (∀ k ∈ s.handles, s.table.entries.get? k.symbol = some k) ∧
      (∀ k ∈ s.handles, ∀ l ∈ s.handles,
        (k.same l = true ↔ k.symbol = l.symbol) ∧
        (Value.equiv (.kw k) (.kw l) = true ↔ k.symbol = l.symbol) ∧
        (k.order l = .eq ↔ k.symbol = l.symbol)) ∧
      (∀ symbol k, s.table.find? symbol = some k ↔ k ∈ s.handles ∧ k.symbol = symbol) ∧
      (∀ symbol, (s.act (.find symbol)).table.entries = s.table.entries ∧
        (s.act (.find symbol)).handles = (s.table.find? symbol).toList ++ s.handles) ∧
      (∀ spelling, ∃ k, (s.act (.intern spelling)).handles = k :: s.handles ∧
        k.symbol = spelling.toSymbol ∧ ∀ l ∈ s.handles, l.symbol = k.symbol → l = k) ∧
      ∀ k ∈ s.handles, k.hashEq = k.symbol.hashEq + 0x9e3779b9 := by
  intro s
  have h : s.Sound := sound_run actions
  have same : ∀ k ∈ s.handles, ∀ l ∈ s.handles, (k.same l = true ↔ k.symbol = l.symbol) := by
    intro k handle l handle'
    rw [Keyword.same, beq_iff_eq]
    constructor
    · intro cells
      exact congrArg Prod.fst (h.apart _ (h.entered k handle) _ (h.entered l handle') cells)
    · intro symbols
      rw [h.eq_of_symbol handle handle' symbols]
  refine ⟨h.held, ?_, ?_, fun symbol k => h.find?_eq_some_iff, ?_, ?_, ?_⟩
  · intro k handle
    exact Weak.Cache.get?_of_mem h.distinct (h.entered k handle)
  · intro k handle l handle'
    refine ⟨same k handle l handle', ?_, ?_⟩
    · rw [equiv_kw]
      exact same k handle l handle'
    · have order : Symbol.order k.symbol l.symbol = .eq ↔ k.symbol = l.symbol :=
        Std.LawfulEqCmp.compare_eq_iff_eq
      exact order
  · intro symbol
    rw [act]
    split
    · next k found =>
      rw [found]
      exact ⟨rfl, rfl⟩
    · next none =>
      rw [none]
      exact ⟨rfl, rfl⟩
  · intro spelling
    have after := h.intern spelling
    have first : ∃ k, (s.act (.intern spelling)).handles = k :: s.handles ∧
        k.symbol = spelling.toSymbol := by
      rcases act_intern s spelling with ⟨k, found, step⟩ | ⟨-, step⟩
      · rw [step]
        exact ⟨k, rfl, (h.swept.find?_eq_some_iff.mp found).2⟩
      · rw [step]
        exact ⟨_, rfl, rfl⟩
    obtain ⟨k, handles, symbol⟩ := first
    refine ⟨k, handles, symbol, fun l handle symbols => after.eq_of_symbol ?_ ?_ symbols⟩
    · rw [handles]
      exact List.mem_cons_of_mem _ handle
    · rw [handles]
      exact List.mem_cons_self
  · intro k handle
    calc k.hashEq = (Keyword.ofSymbol k.cell k.symbol).hashEq :=
          congrArg Keyword.hashEq (h.made _ (h.entered k handle))
      _ = k.symbol.hashEq + 0x9e3779b9 := by rw [Keyword.ofSymbol, goldenRatio]

/-- A keyword that died and is asked for again has a new cell and the old hash. -/
theorem interning_canonical_again :
    let s := run [.setSweep false, .intern (.name "a"), .drop 0, .intern (.qualified "b" "c"),
      .intern (.symbol ⟨none, "a"⟩)]
    s.handles.map Keyword.cell = [2, 1] ∧
      ∃ k ∈ s.handles, s.table.find? ⟨none, "a"⟩ = some k ∧
        k.hashEq = k.symbol.hashEq + 0x9e3779b9 := by
  intro s
  have laws := interning_canonical [.setSweep false, .intern (.name "a"), .drop 0,
    .intern (.qualified "b" "c"), .intern (.symbol ⟨none, "a"⟩)]
  refine ⟨rfl, _, List.mem_cons_self, ?_, laws.2.2.2.2.2.2 _ List.mem_cons_self⟩
  exact (laws.2.2.2.1 _ _).mpr ⟨List.mem_cons_self, rfl⟩

end Session

end ValueCore.Keyword
