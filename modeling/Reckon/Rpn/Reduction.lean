import Reckon.Literal
import Reckon.Operator

/-!
# Reduction of a sequence in postfix order

The tokens are taken from left to right. A literal puts its number on a stack; an operator takes the
two latest numbers off it, the right operand first, and puts the answer of the provider on it. A
sequence has a value if exactly one number is left in the end.
-/

namespace Reckon.Rpn

/-- The state of a reduction. -/
structure Reduction where
  /-- The numbers that no operator has taken yet, the latest first. -/
  stack : List Float
  /-- All calls of the provider so far, the latest first. -/
  past : History
  deriving DecidableEq

namespace Reduction

/-- Takes a token in. -/
def step (p : Arithmetic) (state : Reduction) : Token → Run Reduction
  | .num text => do
    let value ← parseNumber text
    return { state with stack := value :: state.stack }
  | .op symbol => do
    let operator ← Run.ofExcept (Operator.lookup symbol)
    match state.stack with
    | right :: left :: stack =>
      let call : Call := ⟨operator.kind, left, right⟩
      let value ← Run.call p state.past call
      return ⟨value :: stack, call :: state.past⟩
    | _ =>
      Run.note (.missingOperand symbol)
      Run.fail .invalidExpression
  | .lparen | .rparen => do
    Run.note .strayParenthesis
    Run.fail .invalidExpression

/-- The value after the last token. -/
def finish (state : Reduction) : Run Float :=
  match state.stack with
  | [value] => pure value
  | stack => do
    Run.note (.valuesLeft stack.length)
    Run.fail .invalidExpression

end Reduction

/-- The value of a sequence in postfix order, after earlier calls of the provider. -/
def reduceFrom (p : Arithmetic) (past : History) (tokens : List Token) : Run Float := do
  let state ← tokens.foldlM (Reduction.step p) ⟨[], past⟩
  state.finish

/-- The value of a sequence in postfix order. -/
def reduce (p : Arithmetic) (tokens : List Token) : Run Float :=
  reduceFrom p [] tokens

end Reckon.Rpn
