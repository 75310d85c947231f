import Reckon.Decimal.Rounding
import Reckon.Run

/-!
# Literals

The number that a literal denotes: the floating-point number nearest to the decimal number of its
text. A text that is no decimal number has none, and neither has one that is nearest to an infinity.
An infinity or a NaN that is called by its name is a floating-point number too, but no literal
denotes it.
-/

namespace Reckon

namespace Binary64

/-- The floating-point number that a text names: an infinity or a NaN, with an optional sign. The
letters can be of either case. -/
def named? (text : String) : Option Float :=
  let (negative, name) := Decimal.splitSign text.toList
  let name := String.ofList (name.map Char.toLower)
  if name = "inf" ∨ name = "infinity" then some (ofSignBits negative infinityBits)
  else if name = "nan" then some (ofSignBits negative (infinityBits + 1))
  else none

/-- The floating-point number that a text denotes, written as a decimal number or by its name. -/
def parse? (text : String) : Option Float :=
  match Decimal.read? text with
  | some d => some d.toFloat
  | none => named? text

end Binary64

/-- The number that the text of a literal denotes, if it is finite. -/
def literalValue? (text : String) : Option Float :=
  (Binary64.parse? text).filter fun value => Binary64.IsFinite value

/-- The number that the text of a literal denotes, or an error, which is recorded. -/
def parseNumber (text : String) : Run Float :=
  match literalValue? text with
  | some value => pure value
  | none => do
    Run.note (.malformedLiteral text)
    Run.fail .invalidExpression

end Reckon
