import Mathlib.Data.List.Basic
import ValueCore.Function.CallSite
/-!
# Call sites under interference

What a call site answers does not depend on what its slot has.  With a resolver that always
gives the same answers, every call of `resolve` that is done has the resolver's answer,
however its steps and those of other calls alternate (`CallSite.resolve_transparent`).

The invariant is `Site.Sound`: the table in the slot agrees with the resolver, and so does all
that the tasks have found out.  A task that missed an entry does not keep the table that it
read.  It extends the table that the slot has by then, and so no entry gets lost.
-/

namespace ValueCore

variable {resolver : TypeKey → Option Function} {key : TypeKey} {f : Function}

/-! ## Tables -/

namespace MethodTable

/-- Every implementation in a table is the resolver's. -/
def Agrees (resolver : TypeKey → Option Function) (t : MethodTable) : Prop :=
  ∀ key f, t.lookup key = some f → resolver key = some f

variable {t : MethodTable}

theorem lookup_cons (entries : List (TypeKey × Function)) (k : TypeKey) :
    lookup ⟨(key, f) :: entries⟩ k = if k = key then some f else lookup ⟨entries⟩ k := by
  rw [lookup, List.lookup_cons]
  by_cases same : k = key
  · rw [if_pos same, beq_iff_eq.mpr same]
  · rw [if_neg same, beq_eq_false_iff_ne.mpr same]
    rfl

theorem lookup_withEntry (t : MethodTable) (key : TypeKey) (f : Function) (k : TypeKey) :
    (t.withEntry key f).lookup k = if k = key then some f else t.lookup k := by
  obtain ⟨entries⟩ := t
  rw [withEntry]
  induction entries with
  | nil => exact lookup_cons [] k
  | cons e rest ih =>
    obtain ⟨first, g⟩ := e
    rw [put, lookup_cons]
    split
    · next same =>
      rw [lookup_cons, ← same]
      split <;> rfl
    · next other =>
      rw [lookup_cons, ih]
      by_cases here : k = first
      · rw [if_pos here, if_pos here, if_neg (here ▸ other)]
      · rw [if_neg here, if_neg here]

theorem agrees_empty : Agrees resolver {} := by
  intro key f found
  cases found

theorem Agrees.withEntry (h : t.Agrees resolver) (answer : resolver key = some f) :
    (t.withEntry key f).Agrees resolver := by
  intro k g found
  rw [lookup_withEntry] at found
  split at found
  · next same => rw [same, answer, found]
  · exact h k g found

end MethodTable

/-! ## Slots -/

namespace Slot

/-- The implementation that the slot's table has for a type. -/
def lookup (s : Slot) (key : TypeKey) : Option Function :=
  s.current?.bind fun x => x.table.lookup key

/-- The table in the slot agrees with the resolver. -/
def Agrees (resolver : TypeKey → Option Function) (s : Slot) : Prop :=
  ∀ x, s.current? = some x → x.table.Agrees resolver

variable {s : Slot} {table : MethodTable}

theorem Agrees.of_lookup (h : s.Agrees resolver) (found : s.lookup key = some f) :
    resolver key = some f := by
  obtain ⟨x, here, entry⟩ := Option.bind_eq_some_iff.mp found
  exact h x here key f entry

/-- Extending the slot changes the implementation of one type. -/
theorem lookup_extend (s : Slot) (key : TypeKey) (f : Function) (k : TypeKey) :
    ((extend key f).run s).2.lookup k = if k = key then some f else s.lookup k := by
  have entry := MethodTable.lookup_withEntry ((s.current?.map (·.table)).getD {}) key f k
  refine entry.trans (congrArg _ ?_)
  rw [lookup]
  cases s.current? <;> rfl

theorem agrees_some {x : Snapshot} {n : Nat} (agrees : x.table.Agrees resolver) :
    Agrees resolver ⟨some x, n⟩ := by
  intro y here
  cases here
  exact agrees

theorem Agrees.store (agrees : table.Agrees resolver) (s : Slot) :
    ((Slot.store table).run s).2.Agrees resolver :=
  agrees_some agrees

theorem Agrees.extend (h : s.Agrees resolver) (answer : resolver key = some f) :
    ((Slot.extend key f).run s).2.Agrees resolver := by
  refine Agrees.store (MethodTable.Agrees.withEntry ?_ answer) s
  cases here : s.current? with
  | none => exact MethodTable.agrees_empty
  | some x => exact h x here

theorem agrees_clear (s : Slot) : (clear.run s).2.Agrees resolver := by
  intro x here
  cases here

end Slot

namespace CallSite

/-! ## Steps -/

/-- What a step of a task can do, with the slot before and after it. -/
inductive Step (resolver : TypeKey → Option Function) (s : Slot) : Task → Task → Slot → Prop
  | untyped {target : Value} (untyped : target.typeKey? = none) :
      Step resolver s (.start (.resolve target)) (.resolved target none) s
  | hit {target : Value} {key : TypeKey} {f : Function} (typed : target.typeKey? = some key)
      (found : s.lookup key = some f) :
      Step resolver s (.start (.resolve target)) (.resolved target (some f)) s
  | miss {target : Value} {key : TypeKey} (typed : target.typeKey? = some key)
      (missing : s.lookup key = none) :
      Step resolver s (.start (.resolve target)) (.missed target key) s
  | unknown {target : Value} {key : TypeKey} (unknown : resolver key = none) :
      Step resolver s (.missed target key) (.resolved target none) s
  | known {target : Value} {key : TypeKey} {f : Function} (answer : resolver key = some f) :
      Step resolver s (.missed target key) (.extending target key f) s
  | extend {target : Value} {key : TypeKey} {f : Function} :
      Step resolver s (.extending target key f) (.resolved target (some f))
        ((Slot.extend key f).run s).2
  | full {table : MethodTable} {x : Snapshot} (here : s.current? = some x) :
      Step resolver s (.start (.populate table)) (.populated table x) s
  | empty {table : MethodTable} (empty : s.current? = none) :
      Step resolver s (.start (.populate table)) (.absent table) s
  | build {table : MethodTable} : Step resolver s (.absent table) (.built table) s
  | lose {table : MethodTable} {x : Snapshot} (winner : s.current? = some x) :
      Step resolver s (.built table) (.populated table x) ⟨some x, s.nextId + 1⟩
  | win {table : MethodTable} (empty : s.current? = none) :
      Step resolver s (.built table) (.populated table ⟨s.nextId, table⟩)
        ⟨some ⟨s.nextId, table⟩, s.nextId + 1⟩
  | store {table : MethodTable} :
      Step resolver s (.start (.store table)) (.stored table) ((Slot.store table).run s).2
  | clear : Step resolver s (.start .clear) .cleared (Slot.clear.run s).2
  | done {task : Task} (done : task.remaining = 0) : Step resolver s task task s

section Advance

variable (resolver : TypeKey → Option Function) (s : Slot)

theorem advance_resolve {target : Value} (typed : target.typeKey? = some key) :
    ((Task.start (.resolve target)).advance resolver).run s =
      (match s.lookup key with
        | some hit => .resolved target (some hit)
        | none => .missed target key, s) := by
  rw [Task.advance, typed]
  change (match s.lookup key with
    | some hit => (pure (.resolved target (some hit)) : StateM Slot Task)
    | none => pure (.missed target key)).run s = _
  split <;> rfl

theorem advance_populate (table : MethodTable) :
    ((Task.start (.populate table)).advance resolver).run s =
      (match s.current? with
        | some found => .populated table found
        | none => .absent table, s) := by
  change (match s.current? with
    | some found => (pure (.populated table found) : StateM Slot Task)
    | none => pure (.absent table)).run s = _
  split <;> rfl

theorem advance_built (table : MethodTable) :
    ((Task.built table).advance resolver).run s =
      match s.current? with
      | some winner => (.populated table winner, ⟨some winner, s.nextId + 1⟩)
      | none => (.populated table ⟨s.nextId, table⟩, ⟨some ⟨s.nextId, table⟩, s.nextId + 1⟩) := by
  obtain ⟨current?, nextId⟩ := s
  cases current? <;> rfl

/-- Every step of a task is one of these. -/
theorem step_advance (task : Task) :
    Step resolver s task ((task.advance resolver).run s).1 ((task.advance resolver).run s).2 := by
  cases task with
  | start call =>
    cases call with
    | resolve target =>
      cases typed : target.typeKey? with
      | none =>
        rw [Task.advance, typed]
        exact .untyped typed
      | some key =>
        rw [advance_resolve resolver s typed]
        cases found : s.lookup key with
        | some hit => exact .hit typed found
        | none => exact .miss typed found
    | populate table =>
      rw [advance_populate]
      cases here : s.current? with
      | some found => exact .full here
      | none => exact .empty here
    | store | clear => constructor
  | missed target key =>
    rw [Task.advance]
    cases answer : resolver key with
    | none => exact .unknown answer
    | some f => exact .known answer
  | built table =>
    rw [advance_built]
    cases here : s.current? with
    | some winner => exact .lose here
    | none => exact .win here
  | extending | absent => constructor
  | resolved | populated | stored | cleared => exact .done rfl

end Advance

/-! ## What steps keep -/

section Step

/-- What a task knows agrees with the resolver. -/
def Task.Fits (resolver : TypeKey → Option Function) : Task → Prop
  | .start call => ∀ table, call.table? = some table → table.Agrees resolver
  | .missed target key => target.typeKey? = some key
  | .extending target key f => target.typeKey? = some key ∧ resolver key = some f
  | .resolved target answer => answer = target.typeKey?.bind resolver
  | .absent table => table.Agrees resolver
  | .built table => table.Agrees resolver
  | .populated _ got => got.table.Agrees resolver
  | .stored _ => True
  | .cleared => True

variable {s s' : Slot} {task task' : Task}

theorem Step.call_eq (step : Step resolver s task task' s') : task'.call = task.call := by
  cases step <;> rfl

theorem Step.remaining_le (step : Step resolver s task task' s') :
    task'.remaining ≤ task.remaining - 1 := by
  cases step with
  | done done => exact Nat.le_of_eq (done.trans (by rw [done]))
  | _ => simp [Task.remaining]

theorem Step.agrees (step : Step resolver s task task' s') (slot : s.Agrees resolver)
    (fits : task.Fits resolver) : s'.Agrees resolver := by
  cases step with
  | extend => exact slot.extend fits.2
  | lose winner =>
    intro x here
    exact slot x (winner.trans here)
  | win => exact Slot.agrees_some fits
  | store => exact Slot.Agrees.store (fits _ rfl) s
  | clear => exact Slot.agrees_clear s
  | _ => exact slot

theorem Step.fits (step : Step resolver s task task' s') (slot : s.Agrees resolver)
    (fits : task.Fits resolver) : task'.Fits resolver := by
  cases step with
  | untyped untyped => rw [Task.Fits, untyped, Option.bind_none]
  | hit typed found => rw [Task.Fits, typed, Option.bind_some, slot.of_lookup found]
  | miss typed => exact typed
  | @unknown target key unknown =>
    have typed : target.typeKey? = some key := fits
    rw [Task.Fits, typed, Option.bind_some, unknown]
  | known answer => exact ⟨fits, answer⟩
  | extend => rw [Task.Fits, fits.1, Option.bind_some, fits.2]
  | full here => exact slot _ here
  | empty => exact fits _ rfl
  | build => exact fits
  | lose winner => exact slot _ winner
  | win => exact fits
  | store | clear => trivial
  | done => exact fits

/-- A step that replaces what the slot has, whatever that is. -/
def Task.replaces : Task → Bool
  | .start (.store _) => true
  | .start .clear => true
  | _ => false

/-- Every other step keeps the entries of the slot.  One that extends it may only give a type
the implementation that it has. -/
theorem Step.lookup_kept (step : Step resolver s task task' s') (slot : s.Agrees resolver)
    (fits : task.Fits resolver) (keeps : task.replaces = false) (found : s.lookup key = some f) :
    s'.lookup key = some f := by
  cases step with
  | extend =>
    rw [Slot.lookup_extend]
    split
    · next same => rw [← fits.2, ← same, slot.of_lookup found]
    · exact found
  | lose winner =>
    rw [Slot.lookup, winner] at found
    exact found
  | win empty =>
    rw [Slot.lookup, empty] at found
    cases found
  | store | clear => cases keeps
  | _ => exact found

end Step

/-! ## Runs -/

/-- A call that brings a table brings one that agrees with the resolver. -/
def Event.Agrees (resolver : TypeKey → Option Function) (event : Event) : Prop :=
  ∀ call, event.call? = some call → ∀ table, call.table? = some table → table.Agrees resolver

/-- The event is a step of the task at a position. -/
def Event.moves (i : Nat) : Event → Bool
  | .call _ => false
  | .step j => j == i

namespace Site

variable {s : Site} {events : List Event}

/-- The slot and all that the tasks know agree with the resolver. -/
structure Sound (resolver : TypeKey → Option Function) (s : Site) : Prop where
  slot : s.slot.Agrees resolver
  tasks : ∀ task ∈ s.tasks, task.Fits resolver

/-- The calls at a site. -/
def calls (s : Site) : List Call := s.tasks.map Task.call

theorem act_step {i : Nat} {task : Task} (here : s.tasks[i]? = some task) :
    s.act resolver (.step i) = ⟨((task.advance resolver).run s.slot).2,
      s.tasks.set i ((task.advance resolver).run s.slot).1⟩ := by
  rw [act, here]
  rfl

theorem act_step_none {i : Nat} (none : s.tasks[i]? = none) :
    s.act resolver (.step i) = s := by
  rw [act, none]

theorem sound_empty : Sound resolver {} where
  slot x here := by cases here
  tasks task mem := by cases mem

/-- Every event keeps a site sound. -/
theorem Sound.act (h : s.Sound resolver) {event : Event} (agrees : event.Agrees resolver) :
    (s.act resolver event).Sound resolver := by
  cases event with
  | call call =>
    refine ⟨h.slot, fun task mem => ?_⟩
    rcases List.mem_append.mp mem with before | new
    · exact h.tasks task before
    · cases List.mem_singleton.mp new
      exact agrees call rfl
  | step i =>
    cases here : s.tasks[i]? with
    | none =>
      rw [act_step_none here]
      exact h
    | some task =>
      have step := step_advance resolver s.slot task
      have fits := h.tasks task (List.mem_of_getElem? here)
      rw [act_step here]
      refine ⟨step.agrees h.slot fits, fun task' mem => ?_⟩
      rcases List.mem_or_eq_of_mem_set mem with before | rfl
      · exact h.tasks task' before
      · exact step.fits h.slot fits

theorem sound_run (agrees : ∀ event ∈ events, event.Agrees resolver) :
    (run resolver events).Sound resolver := by
  suffices from_any : ∀ s : Site, s.Sound resolver →
      (events.foldl (act resolver) s).Sound resolver from from_any {} sound_empty
  induction events with
  | nil => exact fun s h => h
  | cons event rest ih =>
    obtain ⟨first, others⟩ := List.forall_mem_cons.mp agrees
    exact fun s h => ih others (s.act resolver event) (h.act first)

/-- The tasks carry out the calls that were made. -/
theorem calls_act (s : Site) (event : Event) :
    (s.act resolver event).calls = s.calls ++ event.call?.toList := by
  cases event with
  | call call => exact List.map_append
  | step i =>
    refine Eq.trans ?_ (List.append_nil _).symm
    cases here : s.tasks[i]? with
    | none => rw [act_step_none here]
    | some task =>
      obtain ⟨inside, rfl⟩ := List.getElem?_eq_some_iff.mp here
      have within : i < s.calls.length := (List.length_map Task.call).symm ▸ inside
      have same : s.tasks[i].call = s.calls[i] := (List.getElem_map Task.call).symm
      rw [act_step here, calls, List.map_set, (step_advance resolver s.slot _).call_eq, same]
      exact List.set_getElem_self within

theorem calls_run (events : List Event) :
    (run resolver events).calls = events.filterMap Event.call? := by
  suffices from_any : ∀ s : Site, (events.foldl (act resolver) s).calls =
      s.calls ++ events.filterMap Event.call? from from_any {}
  induction events with
  | nil => exact fun s => (List.append_nil _).symm
  | cons event rest ih =>
    intro s
    rw [List.foldl_cons, ih, calls_act, List.append_assoc, List.filterMap_cons]
    cases event.call? <;> rfl

theorem tasks_act (resolver : TypeKey → Option Function) {i : Nat} {task : Task}
    (here : s.tasks[i]? = some task) (event : Event) :
    (s.act resolver event).tasks[i]? =
      some (if event.moves i then ((task.advance resolver).run s.slot).1 else task) := by
  cases event with
  | call call =>
    obtain ⟨inside, -⟩ := List.getElem?_eq_some_iff.mp here
    exact (List.getElem?_append_left inside).trans here
  | step j =>
    by_cases same : j = i
    · subst same
      obtain ⟨inside, -⟩ := List.getElem?_eq_some_iff.mp here
      rw [act_step here, List.getElem?_set_self inside, Event.moves, if_pos (beq_self_eq_true j)]
    · rw [Event.moves, beq_eq_false_iff_ne.mpr same]
      cases there : s.tasks[j]? with
      | none =>
        rw [act_step_none there]
        exact here
      | some other =>
        rw [act_step there, List.getElem?_set_ne same]
        exact here

/-- A call is done after as many steps as it has left, whatever else happens meanwhile. -/
theorem done_of_steps {i : Nat} {task : Task} (here : s.tasks[i]? = some task)
    (enough : task.remaining ≤ events.countP (Event.moves i)) :
    ∃ last, (events.foldl (act resolver) s).tasks[i]? = some last ∧ last.remaining = 0 ∧
      last.call = task.call := by
  induction events generalizing s task with
  | nil => exact ⟨task, here, Nat.le_zero.mp enough, rfl⟩
  | cons event rest ih =>
    have after := tasks_act resolver here event
    rw [List.countP_cons] at enough
    cases moved : event.moves i with
    | false =>
      rw [moved] at after enough
      exact ih after enough
    | true =>
      have step := step_advance resolver s.slot task
      have fewer := step.remaining_le
      rw [moved, if_pos rfl] at after enough
      obtain ⟨last, there, done, same⟩ := ih after (by omega)
      exact ⟨last, there, done, same.trans step.call_eq⟩

end Site

/-! ## Whole calls -/

section Whole

variable (resolver : TypeKey → Option Function)

theorem run_resolve {target : Value} (typed : target.typeKey? = some key)
    (answers : TypeKey → StateM Slot (Option Function)) (s : Slot) :
    (Slot.resolve target answers).run s =
      (match s.lookup key with
        | some hit => (pure (some hit) : StateM Slot (Option Function))
        | none => do
          match ← answers key with
          | none => pure none
          | some f => do
            Slot.extend key f
            pure (some f)).run s := by
  rw [Slot.resolve, typed]
  rfl

theorem finish_missed (target : Value) (key : TypeKey) (second : StateM Slot Unit) :
    (Task.missed target key).finish resolver [second] =
      (match resolver key with
      | none => pure (.resolved target none)
      | some f => do
        second
        Slot.extend key f
        pure (.resolved target (some f))) := by
  rw [Task.finish, Task.advance]
  cases resolver key with
  | none => rfl
  | some f => rfl

/-- The steps of a call of `resolve`, with whatever happens between them, are those of
`Slot.resolve`. -/
theorem finish_resolve (target : Value) (first second : StateM Slot Unit) :
    (Task.start (.resolve target)).finish resolver [first, second] =
      (do
        let answer ← Slot.resolve target fun key => do
          first
          if (resolver key).isSome then second
          pure (resolver key)
        pure (.resolved target answer)) := by
  cases typed : target.typeKey? with
  | none =>
    rw [Task.finish, Task.advance, Slot.resolve, typed]
    rfl
  | some key =>
    refine StateT.ext fun s => ?_
    rw [Task.finish, StateT.run_bind, StateT.run_bind, advance_resolve resolver s typed,
      run_resolve typed]
    cases s.lookup key with
    | some hit => rfl
    | none =>
      change (do first; (Task.missed target key).finish resolver [second]).run s = _
      rw [finish_missed]
      cases resolver key with
      | none => rfl
      | some f => rfl

/-- The steps of a call of `getOrPopulate` are those of `Slot.getOrPopulate`. -/
theorem finish_populate (table : MethodTable) (first second : StateM Slot Unit) :
    (Task.start (.populate table)).finish resolver [first, second] =
      (do
        let got ← Slot.getOrPopulate do
          first
          second
          pure table
        pure (.populated table got)) := by
  funext ⟨current?, nextId⟩ 
  cases current? with
  | none => rfl
  | some x => rfl

end Whole

/-! ## Interference -/

/-- At any point of any run in which every table that is built or stored agrees with the
resolver, each call has its task, and each call of `resolve` that is done has the answer of the
resolver, which is nothing for nil.  So far the slot had only tables that agree with the
resolver, and only such tables were given out.  The step that extends the slot keeps all
entries that are there when it is taken and adds its own, and nothing but `store` and `clear`
takes an entry away. -/
theorem resolve_transparent {events : List Event}
    (agrees : ∀ event ∈ events, event.Agrees resolver) :
    let s := Site.run resolver events
    s.calls = events.filterMap Event.call? ∧
      (∀ target answer, .resolved target answer ∈ s.tasks →
        answer = target.typeKey?.bind resolver) ∧
      (∀ answer, .resolved .nil answer ∈ s.tasks → answer = none) ∧
      (∀ table got, .populated table got ∈ s.tasks → got.table.Agrees resolver) ∧
      (∀ earlier, earlier <+: events → (Site.run resolver earlier).slot.Agrees resolver) ∧
      (∀ (i : Nat) target key f, s.tasks[i]? = some (.extending target key f) →
        let extended := (s.act resolver (.step i)).slot
        target.typeKey? = some key ∧ resolver key = some f ∧ extended.lookup key = some f ∧
          (∀ other, other ≠ key → extended.lookup other = s.slot.lookup other) ∧
          ∀ other g, s.slot.lookup other = some g → extended.lookup other = some g) ∧
      ∀ (i : Nat) task, s.tasks[i]? = some task → task.replaces = false →
        ∀ key f, s.slot.lookup key = some f →
          (s.act resolver (.step i)).slot.lookup key = some f := by
  intro s
  have sound : s.Sound resolver := Site.sound_run agrees
  have answers : ∀ target answer, .resolved target answer ∈ s.tasks →
      answer = target.typeKey?.bind resolver := fun _ _ mem => sound.tasks _ mem
  have kept : ∀ (i : Nat) task, s.tasks[i]? = some task → task.replaces = false →
      ∀ key f, s.slot.lookup key = some f →
        (s.act resolver (.step i)).slot.lookup key = some f := by
    intro i task here keeps key f found
    have fits := sound.tasks task (List.mem_of_getElem? here)
    rw [Site.act_step here]
    exact (step_advance resolver s.slot task).lookup_kept sound.slot fits keeps found
  refine ⟨Site.calls_run events, answers, fun answer mem => answers _ _ mem,
    fun _ _ mem => sound.tasks _ mem, ?_, ?_, kept⟩
  · intro earlier before
    exact (Site.sound_run fun event mem => agrees event (before.subset mem)).slot
  · intro i target key f here
    obtain ⟨typed, answer⟩ := sound.tasks _ (List.mem_of_getElem? here)
    have extended : (s.act resolver (.step i)).slot = ((Slot.extend key f).run s.slot).2 := by
      rw [Site.act_step here]
      rfl
    refine ⟨typed, answer, ?_, ?_, kept i _ here rfl⟩
    · rw [extended, Slot.lookup_extend, if_pos rfl]
    · intro other different
      rw [extended, Slot.lookup_extend, if_neg different]

/-- A resolver that knows two types. -/
def twoTypes : TypeKey → Option Function
  | .int => some (.foreign 1 "int-impl" 0)
  | .string => some (.foreign 2 "string-impl" 0)
  | _ => none

/-- Two calls miss an entry of the same empty slot and a third finds it empty.  One of the two
extends the slot, so the table that the third builds is let go, and then the other extends
what the first made. -/
theorem resolve_transparent_two :
    let number : Value := .int 1
    let text : Value := .str 0 "a"
    let events : List Event := [.call (.resolve number), .call (.resolve text),
      .call (.populate {}), .call (.resolve .nil), .step 0, .step 1, .step 2, .step 0, .step 1,
      .step 0, .step 2, .step 2, .step 3]
    let s := Site.run twoTypes events
    let extended := (s.act twoTypes (.step 1)).slot
    s.tasks[0]? = some (.resolved number (twoTypes .int)) ∧
      s.tasks[3]? = some (.resolved .nil none) ∧
      s.slot.lookup .string = none ∧
      extended.lookup .string = twoTypes .string ∧
      extended.lookup .int = twoTypes .int ∧
      s.slot.Agrees twoTypes := by
  intro number text events s extended
  have agrees : ∀ event ∈ events, event.Agrees twoTypes := by
    intro event mem call made table brought
    have none_brought : table = {} := by
      simp only [events, List.mem_cons, List.not_mem_nil, or_false] at mem
      rcases mem with rfl | rfl | rfl | rfl | rfl | rfl | rfl | rfl | rfl | rfl | rfl | rfl | rfl <;>
        cases made <;> cases brought
      rfl
    rw [none_brought]
    exact MethodTable.agrees_empty
  have state : s = ⟨⟨some ⟨0, ⟨[(.int, .foreign 1 "int-impl" 0)]⟩⟩, 2⟩,
      [.resolved number (twoTypes .int), .extending text .string (.foreign 2 "string-impl" 0),
        .populated {} ⟨0, ⟨[(.int, .foreign 1 "int-impl" 0)]⟩⟩, .resolved .nil none]⟩ := by
    simp [s, events, number, text, twoTypes, Site.run, Site.act, Task.advance, Slot.load,
      Slot.extend, Slot.store, Slot.snapshot, Slot.installIfEmpty, MethodTable.lookup,
      MethodTable.withEntry, MethodTable.put, Value.typeKey?, Value.int]
  have whole := resolve_transparent agrees
  have slots := whole.2.2.2.2.1 events List.prefix_rfl
  have second : s.tasks[1]? = some (.extending text .string (.foreign 2 "string-impl" 0)) := by
    rw [state]
    rfl
  have before : s.slot.lookup .int = twoTypes .int := by
    rw [state]
    rfl
  have step := whole.2.2.2.2.2.1 1 text .string _ second
  refine ⟨?_, ?_, ?_, step.2.2.1, step.2.2.2.2 .int _ before, slots⟩
  all_goals
    rw [state]
    rfl

end CallSite

end ValueCore
