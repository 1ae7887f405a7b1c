import ValueCore.Number.Double
/-!
# The shortest decimal of a double

A double stands for every real that rounds to it.  Its shortest decimal is the
one with the fewest digits among those, and the nearest to the value of these.
It is found on the coarsest decimal grid that has a point in the interval of
reals that round to the double.  If a grid has such a point, then one of the two
neighbours of the value on the grid is one.

The text is positional, without an exponent, however long that makes it.
-/

namespace ValueCore.Double

-- Powers are the built-in ones, also where another instance is in scope.
attribute [local instance (high)] instPowNat

/-! ## The interval -/

/-- A positive double with the reals that round to it, all over one denominator. -/
structure Interval where
  /-- The value. -/
  value : Nat
  /-- The lower end. -/
  low : Nat
  /-- The upper end. -/
  high : Nat
  /-- The denominator of the three. -/
  denominator : Nat
  /-- Whether the ends round to the double too. -/
  closed : Bool

/-- The interval of a double that is finite and not zero.  The ends are half way to
the neighbours.  Below a power of two the lower neighbour is half as far. -/
def interval (x : Double) : Interval :=
  let m := x.mantissa
  let narrow := x.fraction = 0 && 1 < x.exponent
  let value := 4 * m
  let low := if narrow then value - 1 else value - 2
  let high := value + 2
  match x.power with
  | .ofNat e => ⟨value * 2 ^ e, low * 2 ^ e, high * 2 ^ e, 4, m % 2 = 0⟩
  | .negSucc e => ⟨value, low, high, 4 * 2 ^ (e + 1), m % 2 = 0⟩

/-- The interval in units of `10 ^ p`. -/
def Interval.inUnits (i : Interval) (p : Int) : Interval :=
  match p with
  | .ofNat e => { i with denominator := i.denominator * 10 ^ e }
  | .negSucc e =>
    let scale := 10 ^ (e + 1)
    { i with value := i.value * scale, low := i.low * scale, high := i.high * scale }

/-- Whether the integer `n` lies in the interval. -/
def Interval.holds (i : Interval) (n : Nat) : Bool :=
  let point := n * i.denominator
  if i.closed then i.low ≤ point && point ≤ i.high else i.low < point && point < i.high

/-- The integer nearest to the value that lies in the interval.  A tie goes up. -/
def Interval.nearest? (i : Interval) : Option Nat :=
  let below := i.value / i.denominator
  let above := below + 1
  match i.holds below, i.holds above with
  | false, false => none
  | true, false => some below
  | false, true => some above
  | true, true =>
    if 2 * (i.value - below * i.denominator) < i.denominator then some below else some above

/-! ## The grid -/

/-- A count of units of `10 ^ power`. -/
structure Decimal where
  /-- The count. -/
  digits : Nat
  /-- The power of ten. -/
  power : Int
deriving DecidableEq

/-- The first hit among the grids `10 ^ (bottom + k)` for `k` from `steps` down. -/
def coarsest (i : Interval) (bottom : Int) : Nat → Decimal
  | 0 => ⟨((i.inUnits bottom).nearest?).getD 0, bottom⟩
  | steps + 1 =>
    match (i.inUnits (bottom + (steps + 1 : Nat))).nearest? with
    | some n => ⟨n, bottom + (steps + 1 : Nat)⟩
    | none => coarsest i bottom steps

/-- The shortest decimal of the magnitude of a finite double.  Every double is a
multiple of `10 ^ -1074`, and none reaches `10 ^ 309`. -/
def shortest (x : Double) : Decimal :=
  if x.isZero then ⟨0, 0⟩ else coarsest x.interval (-1074) (1074 + 309)

/-! ## The text -/

/-- A decimal written out in full. -/
def Decimal.positional (d : Decimal) : String :=
  let digits := Nat.toDigits 10 d.digits
  match d.power with
  | .ofNat e => String.ofList (digits ++ List.replicate e '0')
  | .negSucc e =>
    let places := e + 1
    let padded := List.replicate (places + 1 - digits.length) '0' ++ digits
    let whole := padded.take (padded.length - places)
    String.ofList (whole ++ '.' :: padded.drop (padded.length - places))

/-- A finite double in decimal, with a sign also on the negative zero. -/
def decimalText (x : Double) : String :=
  (if x.negative then "-" else "") ++ x.shortest.positional

/-- A double as written.  An integral one ends in `.0`; the values that are not finite
have names. -/
def text (x : Double) : String :=
  if x.isNaN then "##NaN"
  else if !x.isFinite then (if x.negative then "##-Inf" else "##Inf")
  else if x.isIntegral then x.decimalText ++ ".0"
  else x.decimalText

example : (Double.mk 0x3fb999999999999a).shortest = ⟨1, -1⟩ := by decide +kernel

end ValueCore.Double
