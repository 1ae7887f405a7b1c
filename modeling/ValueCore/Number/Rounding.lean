import ValueCore.Number.Double
/-!
# Rounding to a double

The double nearest to a fraction, ties to the even neighbour.  The fraction is
measured in units of `2 ^ power`, where the power is the largest one that leaves
fifty-three bits or the least one that a double can have.  The rounded count is
then the lower end of the bits, and a carry out of the mantissa runs into the
exponent field by itself.

A large integer is cut to its leading word before it is rounded.  `ofLargeInt` says
which of the bits below that word still count.
-/

namespace ValueCore.Double

-- Powers are the built-in ones, also where another instance is in scope.
attribute [local instance (high)] instPowNat

/-- The integer nearest to `p / q`, ties to even. -/
def roundQuotient (p q : Nat) : Nat :=
  let low := p / q
  let twice := 2 * (p % q)
  if twice < q then low
  else if twice > q then low + 1
  else low + low % 2

/-- Numerator and denominator of `p / q` in units of `2 ^ power`. -/
def inUnits (p q : Nat) (power : Int) : Nat × Nat :=
  match power with
  | .ofNat e => (p, q * 2 ^ e)
  | .negSucc e => (p * 2 ^ (e + 1), q)

/-- The power of two whose units measure `p / q` with fifty-three bits, and at least
`-1074`. -/
def unitPower (p q : Nat) : Int :=
  let guess : Int := Nat.log2 p - Nat.log2 q - 52
  let count := inUnits p q guess
  let power := if count.1 < count.2 * 2 ^ (52 : Nat) then guess - 1 else guess
  max power (-1074)

/-- The magnitude bits of the double nearest to `p / q`, capped at infinity. -/
def nearestMagnitude (p q : Nat) : Nat :=
  if p = 0 then 0
  else
    let power := unitPower p q
    let count := inUnits p q power
    let bits := (power + 1074).toNat * 2 ^ (52 : Nat) + roundQuotient count.1 count.2
    min bits (2047 * 2 ^ (52 : Nat))

/-- The double with the given sign and magnitude bits. -/
def ofMagnitude (negative : Bool) (bits : Nat) : Double :=
  ⟨Nat.toUInt64 (if negative then 2 ^ (63 : Nat) + bits else bits)⟩

/-- The double nearest to `p / q`. -/
def ofFraction (p : Int) (q : Nat) : Double :=
  ofMagnitude (p < 0) (nearestMagnitude p.natAbs q)

/-- The double nearest to an integer. -/
def ofInt (n : Int) : Double := ofFraction n 1

/-! ## Large integers -/

/-- Whether some digit of `n` to the base `2 ^ 64` has one of its lowest `t` bits
set. -/
def anyLowBit (t n : Nat) : Bool :=
  if h : n = 0 then false
  else n % 2 ^ (64 : Nat) % 2 ^ t ≠ 0 || anyLowBit t (n / 2 ^ (64 : Nat))
termination_by n
decreasing_by exact Nat.div_lt_self (Nat.pos_of_ne_zero h) (by decide)

/-- The first sixty-four bits of a number that has more, in their place.  The last of
them is set as well if a bit below it counts.  Of each digit below, as many of its
lowest bits count as the first digit is long. -/
def leadingWord (n : Nat) : Nat :=
  let top := Nat.log2 n
  let place := 2 ^ (top - 63)
  let lead := n / place
  let odd := if anyLowBit (top % 64 + 1) (n % place) then 1 - lead % 2 else 0
  (lead + odd) * place

/-- The double for an integer of any size.  One that fits in a word is rounded as it
is, and a larger one by its leading word. -/
def ofLargeInt (n : Int) : Double :=
  if n.natAbs < 2 ^ (64 : Nat) then ofInt n
  else ofInt (n.sign * leadingWord n.natAbs)

example : ofInt (2 ^ 53 + 1) = ⟨0x4340000000000000⟩ := by decide +kernel
example : ofFraction (-1) 2 = ⟨0xbfe0000000000000⟩ := by decide +kernel
example : ofLargeInt (2 ^ 128 + 2 ^ 75 + 1) = ⟨0x47f0000000000001⟩ := by decide +kernel
example : ofLargeInt (2 ^ 128 + 2 ^ 75 + 2) = ⟨0x47f0000000000000⟩ := by decide +kernel

end ValueCore.Double
