import Reckon.Binary64
import Reckon.Decimal

/-!
# The shortest text of a number

A floating-point number is written with as few digits as still read back as the same number; among
those it is the nearest, and of two equally near the larger. Digits are written positionally,
whatever the magnitude, and a whole number has no point.

The numbers that read back as a given one form an interval, whose ends belong to it if the
significand is even. The multiples of a power of ten form a grid, and the coarsest grid with a point
in the interval gives the fewest digits. If a grid has a point in the interval, then so does the
greatest point that is not above the number, or the point that follows it.
-/

namespace Reckon

namespace Binary64

/-- The magnitudes that round to a given one, in units of a quarter of the smallest positive
number. -/
structure Interval where
  /-- The magnitude itself. -/
  value : Nat
  /-- The lower end. -/
  low : Nat
  /-- The upper end. -/
  high : Nat
  /-- Whether the ends belong to the interval. -/
  closed : Bool

/-- The interval of a finite number. It reaches half way to either neighbour; the lower neighbour of
a power of two is at half the distance of the upper one, unless the number is among the smallest. -/
def interval (x : Float) : Interval :=
  let m := significand x
  let unit := Nat.pow 2 (scale x)
  let below := if m = Nat.pow 2 52 ∧ 0 < scale x then 1 else 2
  ⟨4 * m * unit, (4 * m - below) * unit, (4 * m + 2) * unit, m % 2 = 0⟩

/-- Whether `num / den` lies in an interval. -/
def Interval.contains (i : Interval) (num den : Nat) : Bool :=
  if i.closed then i.low * den ≤ num && num ≤ i.high * den
  else i.low * den < num && num < i.high * den

/-- The multiple of `10 ^ e` in the interval that is nearest to its value, as a multiplier. -/
def Interval.onGrid? (i : Interval) (e : Int) : Option Nat :=
  let step := Nat.pow 2 1076 * Nat.pow 10 e.toNat
  let den := Nat.pow 10 (-e).toNat
  let k := i.value * den / step
  match i.contains (k * step) den, i.contains ((k + 1) * step) den with
  | true, true => if 2 * (i.value * den) < (2 * k + 1) * step then some k else some (k + 1)
  | true, false => some k
  | false, true => some (k + 1)
  | false, false => none

/-- The exponent of the finest grid that is looked at. It holds every floating-point number. -/
def finestExponent : Int := -1074

/-- A nearest point, in the interval, of the coarsest grid that has one, of the grids up to so many
steps coarser than the finest. -/
def Interval.shortest (i : Interval) : Nat → Nat × Int
  | 0 => (i.value * Nat.pow 10 finestExponent.natAbs / Nat.pow 2 1076, finestExponent)
  | steps + 1 =>
    let e := finestExponent + (steps + 1 : Nat)
    match i.onGrid? e with
    | some k => (k, e)
    | none => i.shortest steps

/-- The decimal number with the fewest digits that reads back as a finite number other than zero.
No grid coarser than that of `10 ^ 308` has a point in an interval. -/
def shortest (x : Float) : Decimal :=
  let (digits, exponent) := (interval x).shortest 1382
  ⟨isNegative x, digits, exponent⟩

end Binary64

namespace Decimal

/-- The magnitude of a decimal number, written without an exponent. -/
def positional (d : Decimal) : String :=
  let digits := Nat.toDigits 10 d.digits
  match d.exponent with
  | .ofNat k => String.ofList (digits ++ List.replicate k '0')
  | .negSucc k =>
    let padded := List.replicate (k + 2 - digits.length) '0' ++ digits
    let whole := padded.length - (k + 1)
    String.ofList (padded.take whole ++ '.' :: padded.drop whole)

end Decimal

namespace Binary64

/-- The text of a magnitude. -/
def magnitudeText (x : Float) : String :=
  if IsFinite x then if magnitude x = 0 then "0" else (shortest x).positional
  else "inf"

/-- The text of a number. A NaN has no sign. -/
def text (x : Float) : String :=
  if x.isNaN then "NaN"
  else if isNegative x then "-" ++ magnitudeText x
  else magnitudeText x

end Binary64

end Reckon
