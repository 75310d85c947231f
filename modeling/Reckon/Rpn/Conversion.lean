import Reckon.Operator
import Reckon.Run

/-!
# Conversion to postfix order

In postfix order each operator follows its operands, and no parentheses are needed. Literals are put
out at once. An operator waits on a stack until one comes that is to be carried out after it, or
until the group that it stands in is closed; a left parenthesis waits on the same stack and marks
where a group begins.

The conversion does not look at whether operators have their operands. It fails on a symbol that is
no operator and on parentheses that do not pair up.
-/

namespace Reckon.Rpn

/-- The state of a conversion. -/
structure Conversion where
  /-- The tokens that have been put out, the latest first. -/
  output : List Token
  /-- The operators and left parentheses that wait, the latest first. -/
  stack : List Token
  deriving DecidableEq

namespace Conversion

/-- The state before the first token. -/
def initial : Conversion := ⟨[], []⟩

/-- Puts out the waiting operators that are carried out before the next one, down to the first that
is not, or to a left parenthesis. -/
def release (symbol : String) (next : Operator) (output : List Token) :
    List Token → Run Conversion
  | .op waiting :: stack => do
    let operator ← Run.ofExcept (Operator.lookup waiting)
    if operator.goesBefore next then
      Run.note (.popping waiting symbol)
      release symbol next (.op waiting :: output) stack
    else
      return ⟨output, .op waiting :: stack⟩
  | stack => pure ⟨output, stack⟩

/-- Closes the latest group: puts out what waits since its left parenthesis and drops that. -/
def close (output : List Token) : List Token → Run Conversion
  | .lparen :: stack => pure ⟨output, stack⟩
  | token :: stack => close (token :: output) stack
  | [] => do
    Run.note .unmatchedRight
    Run.fail .mismatchedParentheses

/-- Takes a token in. -/
def step (state : Conversion) : Token → Run Conversion
  | .num text => pure { state with output := .num text :: state.output }
  | .op symbol => do
    let next ← Run.ofExcept (Operator.lookup symbol)
    let state ← release symbol next state.output state.stack
    Run.note (.pushing symbol)
    return { state with stack := .op symbol :: state.stack }
  | .lparen => pure { state with stack := .lparen :: state.stack }
  | .rparen => close state.output state.stack

/-- Puts out all that still waits. -/
def drain (output : List Token) : List Token → Run (List Token)
  | .lparen :: _ => do
    Run.note .unclosedLeft
    Run.fail .mismatchedParentheses
  | token :: stack => drain (token :: output) stack
  | [] => pure output

/-- The tokens in postfix order after the last token. -/
def finish (state : Conversion) : Run (List Token) := do
  let output ← drain state.output state.stack
  Run.note (.converted output.reverse)
  return output.reverse

end Conversion

/-- The tokens of an expression in postfix order. -/
def ofInfix (tokens : List Token) : Run (List Token) := do
  let state ← tokens.foldlM Conversion.step Conversion.initial
  state.finish

end Reckon.Rpn
