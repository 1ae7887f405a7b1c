import ValueCore.Function.Dispatch
/-!
# Call sites

A call site is a slot together with the calls of its operations that were made so far, by any
number of callers.  A call goes on step by step, and each step is one atomic step on the slot
or the work between two of them.

* `Slot.resolve` reads the slot, asks the resolver if the type is not in the table, and
  extends the table that the slot has by then.
* `Slot.getOrPopulate` reads the slot, builds a table if it is empty, and puts that into the
  slot if it is still empty.
* `Slot.store` and `Slot.clear` are one step.

Which call goes on next is left open.  The resolver is the same for all of them.
-/

namespace ValueCore.CallSite

/-- A call of an operation, with the table that it brings. -/
inductive Call where
  | resolve (target : Value)
  | populate (table : MethodTable)
  | store (table : MethodTable)
  | clear

/-- The table that a call brings. -/
def Call.table? : Call → Option MethodTable
  | .populate table => some table
  | .store table => some table
  | _ => none

/-- How far a call has come. -/
inductive Task where
  | start (call : Call)
  /-- The type is not in the table that was read. -/
  | missed (target : Value) (key : TypeKey)
  /-- The resolver gave an implementation. -/
  | extending (target : Value) (key : TypeKey) (f : Function)
  | resolved (target : Value) (answer : Option Function)
  /-- The slot was empty. -/
  | absent (table : MethodTable)
  /-- The table is built. -/
  | built (table : MethodTable)
  | populated (table : MethodTable) (got : Snapshot)
  | stored (table : MethodTable)
  | cleared

namespace Task

/-- The call that a task carries out. -/
def call : Task → Call
  | .start call => call
  | .missed target _ => .resolve target
  | .extending target _ _ => .resolve target
  | .resolved target _ => .resolve target
  | .absent table => .populate table
  | .built table => .populate table
  | .populated table _ => .populate table
  | .stored table => .store table
  | .cleared => .clear

/-- The most steps that are left. -/
def remaining : Task → Nat
  | .start (.resolve _) => 3
  | .start (.populate _) => 3
  | .start (.store _) => 1
  | .start .clear => 1
  | .missed _ _ => 2
  | .extending _ _ _ => 1
  | .absent _ => 2
  | .built _ => 1
  | _ => 0

/-- The next step of a task, with a resolver. -/
def advance (resolver : TypeKey → Option Function) : Task → StateM Slot Task
  | .start (.resolve target) =>
    match target.typeKey? with
    | none => pure (.resolved target none)
    | some key => do
      let seen ← Slot.load
      match seen.bind fun s => s.table.lookup key with
      | some hit => pure (.resolved target (some hit))
      | none => pure (.missed target key)
  | .missed target key =>
    match resolver key with
    | none => pure (.resolved target none)
    | some f => pure (.extending target key f)
  | .extending target key f => do
    Slot.extend key f
    pure (.resolved target (some f))
  | .start (.populate table) => do
    match ← Slot.load with
    | some found => pure (.populated table found)
    | none => pure (.absent table)
  | .absent table => pure (.built table)
  | .built table => do
    let fresh ← Slot.snapshot table
    let got ← Slot.installIfEmpty fresh
    pure (.populated table got)
  | .start (.store table) => do
    Slot.store table
    pure (.stored table)
  | .start .clear => do
    Slot.clear
    pure .cleared
  | done => pure done

/-- A task goes on until it is done, and other callers act on the slot between its steps. -/
def finish (resolver : TypeKey → Option Function) :
    List (StateM Slot Unit) → Task → StateM Slot Task
  | [], task => task.advance resolver
  | others :: rest, task => do
    let next ← task.advance resolver
    if next.remaining = 0 then
      pure next
    else
      others
      finish resolver rest next

end Task

/-- The slot and the calls that were made, the oldest first. -/
structure Site where
  /-- The slot. -/
  slot : Slot := {}
  /-- The calls. -/
  tasks : List Task := []

/-- What happens at a call site. -/
inductive Event where
  /-- Someone calls an operation. -/
  | call (c : Call)
  /-- A call goes on by a step. -/
  | step (i : Nat)

/-- The call that is made. -/
def Event.call? : Event → Option Call
  | .call c => some c
  | .step _ => none

namespace Site

variable (resolver : TypeKey → Option Function)

/-- The site after an event.  A step of a call that was not made does nothing. -/
def act (s : Site) : Event → Site
  | .call c => { s with tasks := s.tasks ++ [.start c] }
  | .step i =>
    match s.tasks[i]? with
    | some task =>
      let (next, slot) := Id.run ((task.advance resolver).run s.slot)
      ⟨slot, s.tasks.set i next⟩
    | none => s

/-- The site after some events.  It starts with an empty slot. -/
def run (events : List Event) : Site := events.foldl (act resolver) {}

end Site

end ValueCore.CallSite
