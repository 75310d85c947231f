import Reckon.Text.Quoted

/-!
# Errors

The ways in which an expression can fail to have a value. Each constructor is a cause; the wording
is in `EvalError.message`.
-/

namespace Reckon

/-- Why an expression has no value. -/
inductive EvalError where
  /-- The text holds nothing but blanks. -/
  | emptyExpression
  /-- The text holds a character that belongs to no token. -/
  | invalidCharacter (c : Char)
  /-- The parentheses do not pair up. -/
  | mismatchedParentheses
  /-- The operands and the operators do not fit together, or a literal is not a number. -/
  | invalidExpression
  /-- An operator token has a symbol that is in no row of the operator table. -/
  | unknownOperator (symbol : String)
  /-- The divisor is zero. -/
  | divisionByZero
  deriving DecidableEq

namespace EvalError

/-- The text of an error for the reader of an expression. -/
def message : EvalError → String
  | emptyExpression => "expression cannot be empty"
  | invalidCharacter c => "invalid character in expression: " ++ Text.quoteChar c
  | mismatchedParentheses => "mismatched parentheses"
  | invalidExpression => "invalid expression"
  | unknownOperator symbol => "unknown operator: " ++ symbol
  | divisionByZero => "cannot divide by zero"

/-- The text of an error that names its cause, for a diagnosis. -/
def inspect : EvalError → String
  | emptyExpression => "EmptyExpression"
  | invalidCharacter c => "InvalidCharacter(" ++ Text.quoteChar c ++ ")"
  | mismatchedParentheses => "MismatchedParentheses"
  | invalidExpression => "InvalidExpression"
  | unknownOperator symbol => "UnknownOperator(" ++ Text.quote symbol ++ ")"
  | divisionByZero => "DivisionByZero"

end EvalError

end Reckon
