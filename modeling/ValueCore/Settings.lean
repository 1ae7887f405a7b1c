/-!
# Settings

What can be set for printing.  Setting gives the previous value, so that a caller can
put it back.
-/

namespace ValueCore

/-- The settings of printing. -/
structure Settings where
  /-- How many elements of a collection are shown, without a limit if absent. -/
  printLength? : Option Nat := none

/-- Changes the print length, and gives the previous one. -/
def Settings.setPrintLength (s : Settings) (length? : Option Nat) :
    Option Nat × Settings :=
  (s.printLength?, { s with printLength? := length? })

end ValueCore
