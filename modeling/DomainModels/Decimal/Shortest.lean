/-!
The shortest decimal that reads back as a given double.

A finite positive double is `significand * 2 ^ scale`. The reals that round to it form an interval
around it, which contains its ends exactly when the significand is even. The shortest decimal is
found on the coarsest grid of powers of ten that has a point in this interval, and it is the point
of that grid nearest to the double.
-/

namespace DomainModels

/-- A positive decimal `digits * 10 ^ exponent`. -/
structure Decimal where
  digits : Nat
  exponent : Int
  deriving DecidableEq, Repr

/-- Which neighbour is taken when a double lies halfway between two points of a grid. -/
inductive Tie where
  | toEven
  | up
  deriving DecidableEq

/-- A positive double as an exact binary fraction. `narrowBelow` holds when the gap to the next
smaller double is half the gap to the next larger one. -/
structure BinaryFraction where
  significand : Nat
  scale : Int
  narrowBelow : Bool
  deriving DecidableEq, Repr

namespace BinaryFraction

/-- Reads the magnitude of a finite double out of its bits. -/
def ofBits (bits : UInt64) : BinaryFraction :=
  let leading : Nat := 1 <<< 52
  let fraction : Nat := bits.toNat % leading
  let exponent : Nat := bits.toNat / leading % 2048
  if exponent = 0 then
    ⟨fraction, -1074, false⟩
  else
    ⟨leading + fraction, (exponent : Int) - 1075, fraction == 0 && 1 < exponent⟩

end BinaryFraction

namespace Decimal

/-- Number of decimal digits of `n`, one for zero. -/
def digitCount (n : Nat) : Nat := (Nat.toDigits 10 n).length

/-- The exponent `e` with `10 ^ e ≤ numerator / denominator < 10 ^ (e + 1)`. -/
def magnitude (numerator denominator : Nat) : Int :=
  let guess : Int := (digitCount numerator : Int) - (digitCount denominator : Int)
  if denominator * Nat.pow 10 guess.toNat ≤ numerator * Nat.pow 10 (-guess).toNat then guess
  else guess - 1

/-- An interval of positive rationals `low / unit`, `middle / unit`, `high / unit`. -/
structure Bracket where
  low : Nat
  middle : Nat
  high : Nat
  unit : Nat
  /-- Whether both ends belong to the interval. -/
  closed : Bool

/-- The reals that round to a double, over a common denominator. -/
def Bracket.ofFraction (x : BinaryFraction) : Bracket :=
  let shift := x.scale - 2
  let times := 1 <<< shift.toNat
  { low := (4 * x.significand - (if x.narrowBelow then 1 else 2)) * times
    middle := 4 * x.significand * times
    high := (4 * x.significand + 2) * times
    unit := 1 <<< (-shift).toNat
    closed := x.significand % 2 = 0 }

/-- The bracket measured in units of `10 ^ exponent`. -/
def Bracket.rescale (b : Bracket) (exponent : Int) : Bracket :=
  let times := Nat.pow 10 (-exponent).toNat
  { b with
    low := b.low * times
    middle := b.middle * times
    high := b.high * times
    unit := b.unit * Nat.pow 10 exponent.toNat }

/-- Whether the integer `n` lies in the interval. -/
def Bracket.contains (b : Bracket) (n : Nat) : Bool :=
  if b.closed then b.low ≤ n * b.unit && n * b.unit ≤ b.high
  else b.low < n * b.unit && n * b.unit < b.high

/-- The integer of the interval next to its middle, if the interval has one beside it. -/
def Bracket.nearest? (b : Bracket) (tie : Tie) : Option Nat :=
  let below := b.middle / b.unit
  let remainder := b.middle % b.unit
  let takeAbove :=
    if 2 * remainder = b.unit then tie = .up || below % 2 = 1 else b.unit < 2 * remainder
  match b.contains below, b.contains (below + 1) with
  | true, true => some (if takeAbove then below + 1 else below)
  | true, false => some below
  | false, true => some (below + 1)
  | false, false => none

/-- Tries the grids `10 ^ exponent`, `10 ^ (exponent - 1)`, …, as many as `tries` says. -/
def searchGrids (b : Bracket) (tie : Tie) (exponent : Int) : Nat → Option Decimal
  | 0 => none
  | tries + 1 =>
    match (b.rescale exponent).nearest? tie with
    | some digits => some ⟨digits, exponent⟩
    | none => searchGrids b tie (exponent - 1) tries

/-- Moves the trailing zeros of the digits into the exponent. -/
def trim (d : Decimal) : Decimal :=
  if h : d.digits ≠ 0 ∧ d.digits % 10 = 0 then trim ⟨d.digits / 10, d.exponent + 1⟩ else d
termination_by d.digits
decreasing_by exact Nat.div_lt_self (Nat.pos_of_ne_zero h.1) (by decide)

/-- The shortest decimal that reads back as `x`, and among those the nearest to `x`. Seventeen
digits always suffice. -/
def shortest (tie : Tie) (x : BinaryFraction) : Decimal :=
  let b := Bracket.ofFraction x
  ((searchGrids b tie (magnitude b.middle b.unit) 18).getD ⟨0, 0⟩).trim

end Decimal

end DomainModels
