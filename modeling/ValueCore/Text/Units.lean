/-!
# Texts as UTF-16 code units

Texts are ordered and hashed by their UTF-16 code units and not by their code
points.  A character above `U+FFFF` is a pair of surrogates, so it sorts below
the characters from `U+E000` to `U+FFFF`.
-/

namespace ValueCore.Text

/-- The code units of one character: the character itself, or two surrogates. -/
def charUnits (c : Char) : List UInt16 :=
  if c.toNat < 0x10000 then [c.toNat.toUInt16]
  else
    let rest : Nat := c.toNat - 0x10000
    [Nat.toUInt16 (0xD800 + rest / 0x400), Nat.toUInt16 (0xDC00 + rest % 0x400)]

/-- The code units of a text. -/
def units (s : String) : List UInt16 :=
  s.toList.flatMap charUnits

/-- Lexicographic comparison of code units. -/
def compareUnits : List UInt16 → List UInt16 → Ordering
  | [], [] => .eq
  | [], _ :: _ => .lt
  | _ :: _, [] => .gt
  | a :: as, b :: bs => if a < b then .lt else if b < a then .gt else compareUnits as bs

/-- The order of texts, by code unit. -/
def order (s t : String) : Ordering :=
  compareUnits (units s) (units t)

/-- The polynomial `31` over the code units of a text, first unit highest. -/
def polynomialHash (s : String) : UInt32 :=
  (units s).foldl (fun h u => h * 31 + u.toUInt32) 0

/-- `U+FFFF` sorts above `U+1F600`, whose first unit is `0xD83D`. -/
example : compareUnits (charUnits '\uffff') (charUnits '😀') = .gt := by decide

end ValueCore.Text
