import Reckon.Rpn.Conversion
import Reckon.Rpn.Reduction
import Reckon.Token.Lexer

/-!
# Evaluation

An expression is evaluated in three stages: its tokens are read, put into postfix order and reduced.
Two cases come before the stages. A text of blanks is the empty expression, and a single negative
literal is taken as a number directly.

`evaluateWith` takes the provider of the operations; `evaluate` uses `Arithmetic.checked`. In a
sequence of evaluations with one provider, `evaluateAll`, only the provider remembers anything.
-/

namespace Reckon

/-- The value of an expression through the three stages, after earlier calls of the provider. -/
def evaluateStages (p : Arithmetic) (past : History) (source : String) : Run Float := do
  let tokens ← tokenize source
  let tokens ← Rpn.ofInfix tokens
  Rpn.reduceFrom p past tokens

/-- The value of a text that is a minus sign directly followed by digits and points, if it is the
text of a number. -/
def negativeLiteral? (text : String) : Run (Option Float) :=
  match text.toList with
  | '-' :: rest =>
    if rest.isEmpty || !rest.all isLiteralChar then pure none else (parseNumber text).attempt
  | _ => pure none

/-- The value of an expression, after earlier calls of the provider. -/
def evaluateFrom (p : Arithmetic) (past : History) (source : String) : Run Float :=
  let trimmed := Text.trim source
  if trimmed.isEmpty then Run.fail .emptyExpression
  else do
    match ← negativeLiteral? trimmed with
    | some value =>
      Run.note (.bareNegative trimmed)
      return value
    | none =>
      let value ← evaluateStages p past source
      Run.note (.evaluated source value)
      return value

/-- The value of an expression, with a provider that has answered no call. -/
def evaluateWith (p : Arithmetic) (source : String) : Run Float :=
  evaluateFrom p [] source

/-- The value of an expression in checked floating-point arithmetic. -/
def evaluate (source : String) : Run Float :=
  evaluateWith .checked source

/-- The values of a sequence of expressions with one provider, which has answered the calls of the
expressions before when it comes to the next one. -/
def evaluateAll (p : Arithmetic) (past : History) : List String → List (Run Float)
  | [] => []
  | source :: sources =>
    let run := evaluateFrom p past source
    run :: evaluateAll p (run.calls.reverse ++ past) sources

end Reckon
