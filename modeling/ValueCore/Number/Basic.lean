import ValueCore.Hash.Murmur
import ValueCore.Number.Rounding
import ValueCore.Number.Ratio
import ValueCore.Number.Shortest
/-!
# Numbers

The numeric tower has four representations: 64-bit integers, integers of any
size, doubles and ratios.  Numbers are equal, ordered and hashed by mathematical
value across the representations.  A double takes part with its exact value and
is never converted, so equality stays transitive.

Large integers and ratios live in allocations of their own.  An allocation is a
number, and `shares` compares it: two clones share, two separately built numbers
do not.

`Number.hashEq` depends on the exact value alone.  `Number.hash` belongs to the
finer equality `Number.sameContent`, which keeps the representations apart.
-/

namespace ValueCore

/-- A number in one of four representations. -/
inductive Number where
  /-- A 64-bit integer. -/
  | int (n : Int64)
  /-- An integer of any size, with its allocation. -/
  | big (id : Nat) (n : Int)
  /-- A double. -/
  | float (x : Double)
  /-- A ratio, with its allocation. -/
  | ratio (id : Nat) (r : Ratio)
deriving DecidableEq

/-- The sign of the difference of two integers. -/
def signOfDifference (a b : Int) : Int :=
  if a < b then -1 else if b < a then 1 else 0

namespace Number

-- Powers are the built-in ones, also where another instance is in scope.
attribute [local instance (high)] instPowNat

/-- Whether an integer fits in 64 bits. -/
def fits (n : Int) : Bool := -2 ^ (63 : Nat) ≤ n && n < 2 ^ (63 : Nat)

/-- `n / d` as a number: an integer if it is integral, large only if it has to be, and
a ratio if not.  Nothing if `d = 0`. -/
def ofFraction (id : Nat) (n d : Int) : Option Number :=
  match h : Ratio.reduce n d with
  | none => none
  | some (p, q) =>
    if hq : 1 < q then some (.ratio id ⟨p, q, hq, Ratio.coprime_reduce h⟩)
    else if fits p then some (.int (Int64.ofInt p))
    else some (.big id p)

/-! ## Value -/

/-- The exact value in lowest terms, or nothing for a NaN or an infinity. -/
def parts : Number → Option (Int × Nat)
  | .int n => some (n.toInt, 1)
  | .big _ n => some (n, 1)
  | .float x => x.parts
  | .ratio _ r => some (r.num, r.den)

/-- Equality by value.  A NaN equals nothing, and the zeros are equal. -/
def equal : Number → Number → Bool
  | .int a, .int b => a == b
  | .float a, .float b => a.eq b
  | a, b =>
    match a.parts, b.parts with
    | some x, some y => x == y
    | _, _ => false

/-- Where a double that is not finite stands against every finite value.  A NaN stands
nowhere, which counts as `0`. -/
def boundSign (x : Double) : Int :=
  if x.isNaN then 0 else if x.negative then -1 else 1

/-- Comparison by value, `-1`, `0` or `1`.  A NaN compares as `0`. -/
def compare : Number → Number → Int
  | .int a, .int b => signOfDifference a.toInt b.toInt
  | .float a, .float b => if a.lt b then -1 else if b.lt a then 1 else 0
  | a, b =>
    match a.parts, b.parts with
    | some (p, q), some (r, s) => signOfDifference (p * s) (r * q)
    | none, _ => match a with
      | .float x => boundSign x
      | _ => 0
    | _, none => match b with
      | .float y => -boundSign y
      | _ => 0

/-! ## Content -/

/-- Equality that keeps the representations apart.  Doubles go by their bits. -/
def sameContent : Number → Number → Bool
  | .int a, .int b => a == b
  | .big _ a, .big _ b => a == b
  | .float a, .float b => a.sameBits b
  | .ratio _ a, .ratio _ b => a = b
  | _, _ => false

/-- Whether two numbers are one allocation. -/
def shares : Number → Number → Bool
  | .big i _, .big j _ => i == j
  | .ratio i _, .ratio j _ => i == j
  | _, _ => false

/-! ## Hashes -/

/-- The polynomial `31` over the 32-bit digits of a natural number, most significant
first. -/
def digitHash (n : Nat) : UInt32 :=
  if h : n = 0 then 0
  else digitHash (n / 2 ^ (32 : Nat)) * 31 + n.toUInt32
termination_by n
decreasing_by exact Nat.div_lt_self (Nat.pos_of_ne_zero h) (by decide)

/-- The digit hash of the magnitude, negated for a negative integer. -/
def bigHash (n : Int) : UInt32 :=
  if n < 0 then -digitHash n.natAbs else digitHash n.natAbs

/-- The two words of a 64-bit integer xored. -/
def longHash (n : Int64) : UInt32 :=
  (n.toUInt64 ^^^ (n.toUInt64 >>> 32)).toUInt32

/-- The hash that agrees with `sameContent`. -/
def hash : Number → UInt32
  | .int n => longHash n
  | .big _ n => bigHash n
  | .float x => x.hash
  | .ratio _ r => bigHash r.num ^^^ bigHash r.den

/-- The value hash of an integer.  One that fits in 64 bits hashes as such. -/
def integerHash (n : Int) : UInt32 :=
  if fits n then Murmur.hashLong (Int64.ofInt n).toUInt64 else bigHash n

/-- The value hash of a fraction in lowest terms. -/
def fractionHash (p : Int) (q : Nat) : UInt32 :=
  if q = 1 then integerHash p else integerHash p ^^^ integerHash q

/-- The value hash of a double.  The zeros and the integral doubles of 64 bits need no
fraction. -/
def floatHash (x : Double) : UInt32 :=
  if x.isZero then 0
  else if !x.isFinite then x.hash
  else if x.isIntegral && fits x.truncate then
    Murmur.hashLong (Int64.ofInt x.truncate).toUInt64
  else
    match x.parts with
    | some (p, q) => fractionHash p q
    | none => x.hash

/-- The value hash, which agrees with `equal`. -/
def hashEq : Number → UInt32
  | .int n => Murmur.hashLong n.toUInt64
  | .big _ n => integerHash n
  | .float x => floatHash x
  | .ratio _ r => integerHash r.num ^^^ integerHash r.den

/-! ## Conversions -/

/-- An integer cut to the range of 32 bits. -/
def clamp (n : Int) : Int32 :=
  Int32.ofInt (max (-2 ^ (31 : Nat)) (min n (2 ^ (31 : Nat) - 1)))

/-- An integer as 32 bits, if it is in their range. -/
def int32? (n : Int) : Option Int32 :=
  if -2 ^ (31 : Nat) ≤ n && n < 2 ^ (31 : Nat) then some (Int32.ofInt n) else none

/-- The number as a 32-bit integer.  Integers keep their low 32 bits, a large one by the
lowest digit of its magnitude.  Doubles and ratios are cut toward zero and end at the
bounds of the range, and a NaN gives `0`. -/
def intValue : Number → Int32
  | .int n => n.toInt32
  | .big _ n =>
    let low := Int32.ofNat (n.natAbs % 2 ^ (32 : Nat))
    if n < 0 then -low else low
  | .float x =>
    if x.isFinite then clamp x.truncate
    else if x.isNaN then 0
    else if x.negative then Int32.minValue
    else Int32.maxValue
  | .ratio _ r =>
    let q := r.num.tdiv r.den
    (int32? q).getD (if q < 0 then Int32.minValue else Int32.maxValue)

/-- The number as a double.  A ratio is the quotient of its rounded terms, or its
integral part if one of the terms is too large for a double. -/
def toDouble : Number → Double
  | .int n => .ofInt n.toInt
  | .big _ n => .ofLargeInt n
  | .float x => x
  | .ratio _ r =>
    let n := Double.ofLargeInt r.num
    let d := Double.ofLargeInt r.den
    if n.isFinite && d.isFinite then .ofFraction n.truncate d.wholePart
    else .ofLargeInt (r.num.tdiv r.den)

/-- The number as written.  A large integer ends in `N`. -/
def text : Number → String
  | .int n => toString n.toInt
  | .big _ n => toString n ++ "N"
  | .float x => x.text
  | .ratio _ r => r.text

/-- The name of the representation. -/
def typeName : Number → String
  | .int _ => "int"
  | .big _ _ => "bigint"
  | .float _ => "float"
  | .ratio _ _ => "ratio"

example : equal (.int 3) (.float ⟨0x4008000000000000⟩) = true := by decide +kernel
example : equal (.float ⟨0x7ff8000000000000⟩) (.float ⟨0x7ff8000000000000⟩) = false := by
  decide +kernel

end Number

end ValueCore
