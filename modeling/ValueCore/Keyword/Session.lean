import ValueCore.Keyword.Table
/-!
# Sessions

A session is the keyword table together with the handles that a program has on keywords.
The program asks for keywords by symbol, name or text, looks for live ones, clones handles
and lets them go, sweeps, and turns the sweep of interning on and off.

Handles are told apart by their position, the newest first.  A clone or a drop at a position
where there is no handle does nothing.
-/

namespace ValueCore.Keyword

/-- How a keyword is asked for. -/
inductive Spelling where
  | symbol (s : Symbol)
  /-- A name in no namespace. -/
  | name (n : String)
  | qualified (ns n : String)
  /-- A text without the colon, as `Symbol.parse` reads it. -/
  | text (t : String)
deriving DecidableEq

/-- The symbol that is asked for. -/
def Spelling.toSymbol : Spelling → Symbol
  | .symbol s => s
  | .name n => ⟨none, n⟩
  | .qualified ns n => ⟨some ns, n⟩
  | .text t => Symbol.parse t

/-- What a program does with keywords. -/
inductive Action where
  /-- Takes a handle on a keyword, which is made if there is none. -/
  | intern (s : Spelling)
  /-- Takes a handle on the live keyword of a symbol, if there is one. -/
  | find (s : Symbol)
  | clone (i : Nat)
  | drop (i : Nat)
  | sweep
  | setSweep (on : Bool)
deriving DecidableEq

/-- The table and the handles. -/
structure Session where
  /-- The keyword table. -/
  table : Table := {}
  /-- The handles that were not let go yet. -/
  handles : List Keyword := []

namespace Session

/-- One more handle on a keyword. -/
def keep (s : Session) (k : Keyword) : Session := ⟨s.table.hold k, k :: s.handles⟩

/-- One action of the program. -/
def act (s : Session) : Action → Session
  | .intern spelling =>
    let done := s.table.intern spelling.toSymbol
    ⟨done.2, done.1 :: s.handles⟩
  | .find symbol =>
    match s.table.find? symbol with
    | some k => s.keep k
    | none => s
  | .clone i =>
    match s.handles[i]? with
    | some k => s.keep k
    | none => s
  | .drop i =>
    match s.handles[i]? with
    | some k => ⟨s.table.release k, s.handles.eraseIdx i⟩
    | none => s
  | .sweep => { s with table := s.table.sweep.2 }
  | .setSweep on => { s with table := (s.table.setSweepOnIntern on).2 }

/-- A session that starts with the empty table and does these actions in order. -/
def run (actions : List Action) : Session := actions.foldl act {}

end Session

end ValueCore.Keyword
