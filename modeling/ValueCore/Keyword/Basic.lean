import ValueCore.Symbol
/-!
# Keywords

A keyword is a handle on a *cell* that holds a symbol and its value hash.  Cells
are shared: as long as a keyword is alive, every handle for its symbol has the
same cell (`ValueCore.Keyword.Table`).  So handles are equal when their cells
are, while the order still goes by symbol.
-/

namespace ValueCore

/-- A handle on an interned symbol. -/
structure Keyword where
  /-- The cell that all handles for the symbol share. -/
  cell : Nat
  /-- The symbol. -/
  symbol : Symbol
  /-- The value hash, computed when the cell was made. -/
  hashEq : UInt32
deriving DecidableEq

namespace Keyword

/-- The contents of a new cell for a symbol. -/
def ofSymbol (cell : Nat) (s : Symbol) : Keyword :=
  ⟨cell, s, s.hashEq + goldenRatio⟩

/-- Equality of handles. -/
def same (a b : Keyword) : Bool := a.cell == b.cell

/-- The order of keywords is that of their symbols. -/
def order (a b : Keyword) : Ordering := a.symbol.order b.symbol

/-- The hash that agrees with equality of content. -/
def hash (k : Keyword) : UInt32 := k.symbol.hash + goldenRatio

/-- A keyword as written, after a colon. -/
def text (k : Keyword) : String := ":" ++ k.symbol.text

/-- A keyword as written for debugging. -/
def debugText (k : Keyword) : String := "Keyword(" ++ k.text ++ ")"

end Keyword

end ValueCore
