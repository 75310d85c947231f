import Reckon.Error

/-!
# Arithmetic

The four operations of an expression, and the providers that carry them out. An answer of a
provider may depend on the calls that it has answered before, so each operation takes that history
besides its operands. A provider whose answers depend on the operands alone is `Memoryless`.

`Arithmetic.checked` is the arithmetic of binary floating-point numbers in which a zero divisor is
an error; in `Arithmetic.ieee` it gives an infinity or a NaN.
-/

namespace Reckon

/-- The operations between two numbers. -/
inductive BinOp where
  | add
  | sub
  | mul
  | div
  deriving DecidableEq

/-- A call of a provider: an operation with its operands. -/
structure Call where
  op : BinOp
  left : Float
  right : Float
  deriving DecidableEq

/-- The calls that a provider has answered, the latest first. -/
abbrev History := List Call

/-- A provider of the four operations. Only a division can fail. -/
structure Arithmetic where
  /-- The sum of two numbers. -/
  add : History → Float → Float → Float
  /-- The first number less the second. -/
  sub : History → Float → Float → Float
  /-- The product of two numbers. -/
  mul : History → Float → Float → Float
  /-- The first number divided by the second, or an error. -/
  div : History → Float → Float → Except EvalError Float

namespace Arithmetic

/-- The answer of a provider to a call, after the calls of the history. -/
def answer (p : Arithmetic) (past : History) (call : Call) : Except EvalError Float :=
  match call.op with
  | .add => .ok (p.add past call.left call.right)
  | .sub => .ok (p.sub past call.left call.right)
  | .mul => .ok (p.mul past call.left call.right)
  | .div => p.div past call.left call.right

/-- A provider whose answers depend on nothing but the operands. -/
def Memoryless (p : Arithmetic) : Prop :=
  ∀ past call, p.answer past call = p.answer [] call

/-- The arithmetic of binary floating-point numbers, with any divisor. -/
def ieee : Arithmetic where
  add _ a b := a + b
  sub _ a b := a - b
  mul _ a b := a * b
  div _ a b := .ok (a / b)

/-- The arithmetic of binary floating-point numbers, in which no divisor is zero. -/
def checked : Arithmetic where
  add _ a b := a + b
  sub _ a b := a - b
  mul _ a b := a * b
  div _ a b := if b == 0.0 then .error .divisionByZero else .ok (a / b)

theorem memoryless_checked : checked.Memoryless := by
  intro past ⟨op, a, b⟩
  cases op <;> rfl

end Arithmetic

end Reckon
