/-!
# Binary floating-point numbers

The view of a `Float` as a sign and a magnitude. The bits of a number are a sign bit, eleven bits
of exponent and fifty-two bits of fraction. Every finite magnitude is a whole multiple of the
smallest one, `2 ^ -1074`, and `magnitude` is that multiple; so magnitudes are compared, added and
rounded as natural numbers. A magnitude is its `significand`, a number below `2 ^ 53`, times a
power of two.
-/

namespace Reckon.Binary64

/-- The bits of a number, read as a natural number. -/
def bits (x : Float) : Nat :=
  x.toBits.toNat

/-- Whether the sign bit is set. -/
def isNegative (x : Float) : Bool :=
  Nat.pow 2 63 ≤ bits x

/-- The eleven bits of the exponent. -/
def exponentField (x : Float) : Nat :=
  bits x / Nat.pow 2 52 % Nat.pow 2 11

/-- The fifty-two bits of the fraction. -/
def fraction (x : Float) : Nat :=
  bits x % Nat.pow 2 52

/-- The digits of a finite number to the base two: its fraction, with a leading one unless the
exponent field is zero. -/
def significand (x : Float) : Nat :=
  if exponentField x = 0 then fraction x else Nat.pow 2 52 + fraction x

/-- The power of two that the significand of a finite number is multiplied by, in units of the
smallest positive number. -/
def scale (x : Float) : Nat :=
  exponentField x - 1

/-- The magnitude of a finite number, in units of the smallest positive number. -/
def magnitude (x : Float) : Nat :=
  significand x * Nat.pow 2 (scale x)

/-- The magnitude of the number one. -/
def magnitudeOfOne : Nat :=
  Nat.pow 2 1074

/-- Whether a number is neither an infinity nor a NaN. -/
def IsFinite (x : Float) : Prop :=
  exponentField x < 2047

instance : DecidablePred IsFinite :=
  fun x => inferInstanceAs (Decidable (exponentField x < 2047))

/-- The bits of the infinities, apart from the sign. All smaller bits are those of a finite
magnitude, and they are in the order of the magnitudes. -/
def infinityBits : Nat :=
  2047 * Nat.pow 2 52

/-- The number with the given sign and the given bits apart from the sign. -/
def ofSignBits (negative : Bool) (n : Nat) : Float :=
  Float.ofBits (UInt64.ofNat (if negative then Nat.pow 2 63 + n else n))

end Reckon.Binary64
