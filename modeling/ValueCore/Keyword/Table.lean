import ValueCore.Keyword.Basic
import ValueCore.Weak.Cache
/-!
# The keyword table

The table maps a symbol to a weak reference to its keyword's cell.  Interning a
symbol gives the live keyword if there is one and makes a new cell if not, in
the place of a dead entry or as a new entry.  A cell is alive as long as a handle
is held.  A cell that dies leaves its entry behind and posts a notice, and a sweep
removes the dead entries.  Interning sweeps first unless that is turned off.

Cells are numbered in the order in which they are made and never used again.
-/

namespace ValueCore.Keyword

/-- The state of interning. -/
structure Table where
  /-- The number of the next cell. -/
  nextCell : Nat := 0
  /-- Weak references to keywords, by symbol. -/
  entries : Weak.Cache Symbol Keyword := []
  /-- The live cells, once for each handle, and the notices of dead ones. -/
  holders : Weak.Holders := {}
  /-- Whether interning sweeps first. -/
  sweepOnIntern : Bool := true

/-- A keyword's cell as a referent. -/
def referent (k : Keyword) : Weak.Referent := ⟨k.cell, k.cell⟩

namespace Table

/-- Whether a keyword has a handle. -/
def alive (t : Table) (k : Keyword) : Bool := t.holders.alive k.referent

/-- Weak references to keywords are the same if the cells are. -/
def refOps (t : Table) : Weak.RefOps Keyword where
  cleared k := !t.alive k
  same := Keyword.same

/-- Removes the dead entries if a notice is pending, and counts them. -/
def sweep (t : Table) : Nat × Table :=
  let done := t.entries.sweep t.refOps t.holders.queue
  (done.1, { t with entries := done.2.2, holders := { t.holders with queue := done.2.1 } })

/-- The live keyword of a symbol.  The table does not change. -/
def find? (t : Table) (s : Symbol) : Option Keyword :=
  match t.entries.get? s with
  | some k => if t.alive k then some k else none
  | none => none

/-- One more handle on a keyword. -/
def hold (t : Table) (k : Keyword) : Table :=
  { t with holders := t.holders.hold k.referent }

/-- One handle fewer. -/
def release (t : Table) (k : Keyword) : Table :=
  { t with holders := t.holders.release k.referent }

/-- Makes a cell for a symbol and enters it. -/
def create (t : Table) (s : Symbol) : Keyword × Table :=
  let k := Keyword.ofSymbol t.nextCell s
  (k, { t with nextCell := t.nextCell + 1, entries := t.entries.put s k })

/-- A handle on the keyword of a symbol, after a sweep if that is on. -/
def intern (t : Table) (s : Symbol) : Keyword × Table :=
  let t := if t.sweepOnIntern then t.sweep.2 else t
  let found := match t.find? s with
    | some k => (k, t)
    | none => t.create s
  (found.1, found.2.hold found.1)

/-- Turns the sweep of interning on or off, and gives the previous setting. -/
def setSweepOnIntern (t : Table) (on : Bool) : Bool × Table :=
  (t.sweepOnIntern, { t with sweepOnIntern := on })

end Table

end ValueCore.Keyword
