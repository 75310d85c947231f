import Reckon.Binary64
import Reckon.Decimal

/-!
# Rounding a decimal number

The floating-point number nearest to a decimal number. Of two that are equally near, the one with
the even significand is taken. All arithmetic is exact: a magnitude is a quotient of two natural
numbers, counted in units of the smallest positive floating-point number.

The bits of a magnitude, apart from the sign, are `s * 2 ^ 52 + m` if the magnitude is `m * 2 ^ s`
with `m` between `2 ^ 52` and `2 ^ 53`, and also if `s` is zero and `m` is smaller. So the rounded
significand may reach `2 ^ 53` and carries into the exponent by itself.
-/

namespace Reckon

/-- The natural number nearest to a quotient, and of two the even one. -/
def nearestEven (num den : Nat) : Nat :=
  let below := num / den
  let rest := num % den
  if 2 * rest < den then below
  else if den < 2 * rest then below + 1
  else below + below % 2

namespace Binary64

/-- The bits of the magnitude nearest to a quotient, as if there were no largest exponent. -/
def nearestBits (num den : Nat) : Nat :=
  let s := (num / den).log2 - 52
  s * Nat.pow 2 52 + nearestEven num (den * Nat.pow 2 s)

end Binary64

namespace Decimal

open Binary64

/-- The bits of the magnitude nearest to that of a decimal number, or bits of infinity and beyond if
it is too large. Two cases need no power of ten to be computed. A nonzero number is too large if its
power of ten is above `10 ^ 308`. It is below half of the smallest positive number, and so rounds to
zero, if its digits are below `2 ^ (3 * k - 1075)` and its denominator is `10 ^ k`, for that is at
least `2 ^ (3 * k)`. -/
def magnitudeBits (d : Decimal) : Nat :=
  if d.digits = 0 then 0
  else match d.exponent with
    | .ofNat k =>
      if 308 < k then infinityBits
      else nearestBits (d.digits * Nat.pow 10 k * magnitudeOfOne) 1
    | .negSucc k =>
      if d.digits.log2 + 1076 ≤ 3 * (k + 1) then 0
      else nearestBits (d.digits * magnitudeOfOne) (Nat.pow 10 (k + 1))

/-- The floating-point number nearest to a decimal number. It is an infinity if the decimal number
is too large. -/
def toFloat (d : Decimal) : Float :=
  ofSignBits d.negative (min d.magnitudeBits infinityBits)

end Decimal

end Reckon
