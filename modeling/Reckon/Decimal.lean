/-!
# Decimal numbers

A decimal number is a sign, a string of digits and a power of ten. `Decimal.read?` reads one from
its text: an optional sign, digits with at most one point among them, before them or after them,
and optionally an exponent, which is the letter `e` in either case, an optional sign and digits.
There is at least one digit in front of the exponent and at least one in it.
-/

namespace Reckon

/-- The decimal number `± digits * 10 ^ exponent`. -/
structure Decimal where
  /-- Whether there is a minus sign, which zero can have too. -/
  negative : Bool
  /-- The digits, read as a natural number. -/
  digits : Nat
  /-- The power of ten. -/
  exponent : Int
  deriving DecidableEq

namespace Decimal

/-- The number that a string of digits denotes. -/
def ofDigits (cs : List Char) : Nat :=
  cs.foldl (fun n c => 10 * n + (c.toNat - '0'.toNat)) 0

/-- Splits an optional sign from a text; the flag says whether it is a minus sign. -/
def splitSign : List Char → Bool × List Char
  | '-' :: rest => (true, rest)
  | '+' :: rest => (false, rest)
  | rest => (false, rest)

/-- Splits the leading digits from a text. -/
def splitDigits (cs : List Char) : List Char × List Char :=
  (cs.takeWhile Char.isDigit, cs.dropWhile Char.isDigit)

/-- Splits a point and the digits behind it from a text, if there is a point. -/
def splitFraction : List Char → List Char × List Char
  | '.' :: rest => splitDigits rest
  | rest => ([], rest)

/-- Reads what may follow the digits of a number: nothing, or an exponent. -/
def readExponent? : List Char → Option Int
  | [] => some 0
  | c :: rest =>
    let (negative, digits) := splitSign rest
    if (c = 'e' ∨ c = 'E') ∧ digits ≠ [] ∧ digits.all Char.isDigit then
      some (if negative then -(ofDigits digits : Int) else ofDigits digits)
    else none

/-- Reads a number without a sign: its digits, and the power of ten that they are multiplied by. -/
def readUnsigned? (cs : List Char) : Option (Nat × Int) :=
  let (whole, rest) := splitDigits cs
  let (fraction, rest) := splitFraction rest
  let digits := whole ++ fraction
  if digits = [] then none
  else (readExponent? rest).map fun e => (ofDigits digits, e - fraction.length)

/-- Reads a number from its text. -/
def read? (text : String) : Option Decimal :=
  let (negative, rest) := splitSign text.toList
  (readUnsigned? rest).map fun (digits, exponent) => ⟨negative, digits, exponent⟩

end Decimal

end Reckon
