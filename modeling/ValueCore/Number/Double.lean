/-!
# Doubles

A double is its 64 bits: a sign, an exponent of eleven bits and a fraction of
fifty-two.  A finite double denotes `± mantissa * 2 ^ power`, where the mantissa
has a hidden leading bit unless the exponent field is zero.

`Double.parts` is that value as a fraction in lowest terms.  `Double.eq` and
`Double.lt` are the usual comparisons, for which a NaN is unequal to everything
and the two zeros are one.  All of it is integer arithmetic on the bits.
-/

namespace ValueCore

/-- A 64-bit floating point number, by its bits. -/
structure Double where
  /-- Sign, exponent field and fraction field, from the top. -/
  bits : UInt64
deriving DecidableEq

namespace Double

-- Powers are the built-in ones, also where another instance is in scope.
attribute [local instance (high)] instPowNat

/-! ## Fields -/

/-- The bits without the sign. -/
def magnitude (x : Double) : Nat := x.bits.toNat % 2 ^ (63 : Nat)

/-- Whether the sign bit is set. -/
def negative (x : Double) : Bool := 2 ^ (63 : Nat) ≤ x.bits.toNat

/-- The exponent field. -/
def exponent (x : Double) : Nat := x.magnitude / 2 ^ (52 : Nat)

/-- The fraction field. -/
def fraction (x : Double) : Nat := x.magnitude % 2 ^ (52 : Nat)

/-- Neither infinite nor a NaN. -/
def isFinite (x : Double) : Bool := x.exponent < 2047

/-- Not a number. -/
def isNaN (x : Double) : Bool := x.exponent = 2047 && x.fraction ≠ 0

/-- One of the two zeros. -/
def isZero (x : Double) : Bool := x.magnitude = 0

/-- The integer that the power of two multiplies. -/
def mantissa (x : Double) : Nat :=
  if x.exponent = 0 then x.fraction else x.fraction + 2 ^ (52 : Nat)

/-- The exponent of the power of two, between `-1074` and `971`. -/
def power (x : Double) : Int := (max x.exponent 1 : Nat) - 1075

/-- A natural number with the sign of `x`. -/
def signed (x : Double) (n : Nat) : Int := if x.negative then -n else n

/-! ## The exact value -/

/-- Cancels factors of two between `m` and `2 ^ k`, and gives what is left of
both. -/
def cancelTwos (m : Nat) : Nat → Nat × Nat
  | 0 => (m, 0)
  | k + 1 => if m % 2 = 0 then cancelTwos (m / 2) k else (m, k + 1)

/-- The value as numerator and denominator in lowest terms, or nothing for a NaN or
an infinity. -/
def parts (x : Double) : Option (Int × Nat) :=
  if x.isFinite then
    match x.power with
    | .ofNat e => some (x.signed (x.mantissa * 2 ^ e), 1)
    | .negSucc e =>
      let rest := cancelTwos x.mantissa (e + 1)
      some (x.signed rest.1, 2 ^ rest.2)
  else none

/-- The part of the magnitude before the point. -/
def wholePart (x : Double) : Nat :=
  match x.power with
  | .ofNat e => x.mantissa * 2 ^ e
  | .negSucc e => x.mantissa / 2 ^ (e + 1)

/-- Whether a finite double is an integer. -/
def isIntegral (x : Double) : Bool :=
  match x.power with
  | .ofNat _ => true
  | .negSucc e => x.mantissa % 2 ^ (e + 1) = 0

/-- A finite double cut toward zero. -/
def truncate (x : Double) : Int := x.signed x.wholePart

/-! ## Comparison -/

/-- An integer that grows with the value.  Both zeros have `0`. -/
def orderKey (x : Double) : Int := x.signed x.magnitude

/-- Equal as numbers. -/
def eq (x y : Double) : Bool := !x.isNaN && !y.isNaN && x.orderKey = y.orderKey

/-- Less as numbers. -/
def lt (x y : Double) : Bool := !x.isNaN && !y.isNaN && x.orderKey < y.orderKey

/-- The same bits, with all NaNs taken together. -/
def sameBits (x y : Double) : Bool := (x.isNaN && y.isNaN) || x.bits == y.bits

/-- The two words of the bits xored.  All NaNs count as the quiet NaN. -/
def hash (x : Double) : UInt32 :=
  let bits := if x.isNaN then 0x7ff8000000000000 else x.bits
  (bits ^^^ (bits >>> 32)).toUInt32

example : (Double.mk 0x3ff8000000000000).parts = some (3, 2) := by decide +kernel
example : (Double.mk 0x8000000000000000).parts = some (0, 1) := by decide +kernel
example : (Double.mk 0x7ff0000000000000).parts = none := by decide +kernel

end Double

end ValueCore
