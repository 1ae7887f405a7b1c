import ValueCore.Number.Double
/-!
# The bits of a double as text

A double is exchanged as the sixteen hexadecimal digits of its bits, in lower case.
-/

namespace ValueCore.Double

/-- The value of a hexadecimal digit. -/
def hexValue (c : Char) : Nat :=
  if '0' ≤ c && c ≤ '9' then c.toNat - '0'.toNat
  else if 'a' ≤ c && c ≤ 'f' then c.toNat - 'a'.toNat + 10
  else 0

/-- The double with the given digits. -/
def ofHex (s : String) : Double :=
  ⟨Nat.toUInt64 (s.toList.foldl (fun n c => n * 16 + hexValue c) 0)⟩

/-- The digits of a double. -/
def hex (x : Double) : String :=
  let digits := Nat.toDigits 16 x.bits.toNat
  String.ofList (List.replicate (16 - digits.length) '0' ++ digits)

end ValueCore.Double
