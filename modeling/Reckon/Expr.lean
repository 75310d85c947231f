import Reckon.Literal
import Reckon.Operator

/-!
# Expression trees

The structure of an expression, apart from how it is written: a literal, or an operation with two
operands. A tree has a listing in postfix order, in which each operation follows its operands, and a
value, which is found by evaluating the left operand, then the right one, and then calling the
provider.
-/

namespace Reckon

/-- An expression as a tree. -/
inductive Expr where
  /-- A literal with its text. -/
  | literal (text : String)
  /-- An operation with its operands. -/
  | binary (op : BinOp) (left right : Expr)
  deriving DecidableEq

namespace Expr

/-- The tokens of a tree in postfix order. -/
def postorder : Expr → List Token
  | literal text => [.num text]
  | binary op left right => left.postorder ++ right.postorder ++ [.op op.symbol]

/-- The value of a tree after earlier calls of the provider, together with all calls so far, the
latest first. -/
def evalFrom (p : Arithmetic) (past : History) : Expr → Run (Float × History)
  | literal text => do
    let value ← parseNumber text
    return (value, past)
  | binary op left right => do
    let (a, past) ← left.evalFrom p past
    let (b, past) ← right.evalFrom p past
    let value ← Run.call p past ⟨op, a, b⟩
    return (value, ⟨op, a, b⟩ :: past)

/-- The value of a tree, with a provider that has answered no call. -/
def eval (p : Arithmetic) (e : Expr) : Run Float := do
  let (value, _) ← e.evalFrom p []
  return value

end Expr

end Reckon
