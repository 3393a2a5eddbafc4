/-!
# The shortest decimal that identifies a binary64 number

A positive finite binary64 number is `mantissa * 2 ^ exponent`.  The decimals
that round to it fill an interval around it, and the shortest text of the number
is the coarsest decimal grid with a point in that interval.  Everything is done
in natural numbers: a power of ten is taken out first, so that the number, the
ends of the interval and every grid point are whole.

The interval reaches half a unit of the mantissa to either side, except that
below the least mantissa of a binade the neighbour is half as far away.  Its ends
belong to it when the mantissa is even, since a tie rounds to even.
-/

namespace WhileLang.Decimal

open Float.Model (UnpackedFloat)

/-- A nonnegative decimal number `coefficient * 10 ^ exponent`. -/
structure Scaled where
  coefficient : Nat
  exponent : Int
deriving DecidableEq

/-- The decimals that round to one number, all in units of a common power of ten:
the number is `center`, one step of its mantissa is `unit`, and the interval
reaches `lowerQuarters` quarters of a step below it. -/
structure RoundingInterval where
  center : Nat
  unit : Nat
  lowerQuarters : Nat
  closed : Bool

/-- The interval of `mantissa * 2 ^ exponent`, in units of `10 ^ min exponent 0`. -/
def RoundingInterval.ofBinary (mantissa : Nat) (exponent : Int) : RoundingInterval :=
  let unit := if 0 ≤ exponent then Nat.pow 2 exponent.toNat else Nat.pow 5 (-exponent).toNat
  { center := mantissa * unit
    unit
    lowerQuarters := if mantissa = Nat.pow 2 52 ∧ -1074 < exponent then 1 else 2
    closed := mantissa % 2 == 0 }

/-- Whether a whole number of units lies in the interval. -/
def RoundingInterval.contains (interval : RoundingInterval) (candidate : Nat) : Bool :=
  let low := 4 * interval.center - interval.lowerQuarters * interval.unit
  let high := 4 * interval.center + 2 * interval.unit
  if interval.closed then
    low ≤ 4 * candidate && 4 * candidate ≤ high
  else
    low < 4 * candidate && 4 * candidate < high

/-- The point of the grid of multiples of `step` that names the interval, as a
multiple: of the two neighbours of the center one that lies in the interval, the
nearer if both do, and the upper if they are equally near. -/
def RoundingInterval.gridPoint? (interval : RoundingInterval) (step : Nat) : Option Nat :=
  let down := interval.center / step
  let up := down + 1
  match interval.contains (down * step), interval.contains (up * step) with
  | true, true => some (if 2 * (interval.center % step) < step then down else up)
  | true, false => some down
  | false, true => some up
  | false, false => none

/-- The first point found on the grids of `10 ^ power` and finer.  On the grid of
single units the center itself is a point. -/
def RoundingInterval.coarsest (interval : RoundingInterval) : Nat → Nat × Nat
  | 0 => (interval.center, 0)
  | power + 1 =>
      match interval.gridPoint? (Nat.pow 10 (power + 1)) with
      | some multiple => (multiple, power + 1)
      | none => interval.coarsest power

/-- Moves zeros at the end of a coefficient into the exponent. -/
def Scaled.trim (number : Scaled) : Scaled :=
  let digits := Nat.toDigits 10 number.coefficient
  let zeros := (digits.reverse.takeWhile (· = '0')).length
  { coefficient := number.coefficient / Nat.pow 10 zeros
    exponent := number.exponent + zeros }

/-- The shortest decimal that rounds to `mantissa * 2 ^ exponent`, and among those
the nearest. -/
def shortest (mantissa : Nat) (exponent : Int) : Scaled :=
  let interval := RoundingInterval.ofBinary mantissa exponent
  let digitCount := (Nat.toDigits 10 interval.center).length
  let (coefficient, power) := interval.coarsest (digitCount - 1)
  Scaled.trim { coefficient, exponent := min exponent 0 + power }

end WhileLang.Decimal
