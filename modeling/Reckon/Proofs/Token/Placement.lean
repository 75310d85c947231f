import Reckon.Grammar

/-!
# Places of operands

Read from left to right, an expression expects an operand at its start, after an operator and after
a left parenthesis, and expects none after a literal and after a right parenthesis. Tokens are well
placed if an operand starts exactly where one is expected. There are two kinds of defect: an operand
can be missing, and operands can be juxtaposed. Main statements: sentences are well placed, and in
any list of tokens the defects of the two kinds differ in number as the operands and the operators
do, `juxtaposed_add`.
-/

namespace Reckon

namespace Token

/-- Whether a token is the first of an operand. -/
def startsOperand : Token → Bool
  | num _ | lparen => true
  | op _ | rparen => false

/-- Whether a token is the last of an operand. -/
def endsOperand : Token → Bool
  | num _ | rparen => true
  | op _ | lparen => false

/-- The tokens are well placed after a place where an operand is expected, or is not: each starts an
operand exactly if one is expected, and none is expected at the end. -/
def WellPlaced : Bool → List Token → Prop
  | expected, [] => expected = false
  | expected, token :: tokens =>
    token.startsOperand = expected ∧ WellPlaced (!token.endsOperand) tokens

instance decidableWellPlaced : ∀ expected tokens, Decidable (WellPlaced expected tokens)
  | expected, [] => inferInstanceAs (Decidable (expected = false))
  | expected, token :: tokens =>
    have := decidableWellPlaced (!token.endsOperand) tokens
    inferInstanceAs (Decidable (token.startsOperand = expected ∧ _))

/-- The number of places where an operand is expected and none starts. -/
def missing : Bool → List Token → Nat
  | expected, [] => if expected then 1 else 0
  | expected, token :: tokens =>
    (if expected && !token.startsOperand then 1 else 0) + missing (!token.endsOperand) tokens

/-- The number of places where no operand is expected and one starts. -/
def juxtaposed : Bool → List Token → Nat
  | _, [] => 0
  | expected, token :: tokens =>
    (if !expected && token.startsOperand then 1 else 0) + juxtaposed (!token.endsOperand) tokens

variable {expected : Bool} {tokens : List Token}

/-- Each juxtaposition is an operand too many and each missing operand one too few, as against one
operator between two operands. -/
theorem juxtaposed_add (expected : Bool) (tokens : List Token) :
    juxtaposed expected tokens + tokens.countP isOp + (if expected then 1 else 0)
      = missing expected tokens + tokens.countP isNum := by
  induction tokens generalizing expected with
  | nil => cases expected <;> rfl
  | cons token tokens ih =>
    have h := ih (!token.endsOperand)
    rw [juxtaposed, missing, List.countP_cons, List.countP_cons]
    cases token <;> cases expected <;> simp [startsOperand, endsOperand, isOp, isNum] at h ⊢ <;>
      omega

theorem wellPlaced_iff :
    WellPlaced expected tokens ↔ juxtaposed expected tokens = 0 ∧ missing expected tokens = 0 := by
  induction tokens generalizing expected with
  | nil => cases expected <;> simp [WellPlaced, juxtaposed, missing]
  | cons token tokens ih =>
    rw [WellPlaced, juxtaposed, missing, ih]
    cases token.startsOperand <;> cases expected <;> simp

theorem WellPlaced.append {xs ys : List Token} (hx : WellPlaced expected xs)
    (hy : WellPlaced false ys) : WellPlaced expected (xs ++ ys) := by
  induction xs generalizing expected with
  | nil =>
    cases hx
    exact hy
  | cons x xs ih => exact ⟨hx.1, ih hx.2⟩

theorem WellPlaced.append_op {xs ys : List Token} (hx : WellPlaced expected xs) (symbol : String)
    (hy : WellPlaced true ys) : WellPlaced expected (xs ++ op symbol :: ys) :=
  hx.append ⟨rfl, hy⟩

end Token

theorem Sentence.wellPlaced {category : Category} {tokens : List Token} {tree : Expr}
    (h : Sentence category tokens tree) : Token.WellPlaced true tokens := by
  induction h with
  | literal text => exact ⟨rfl, rfl⟩
  | group _ ih => exact ⟨rfl, ih.append ⟨rfl, rfl⟩⟩
  | factor _ ih => exact ih
  | product _ _ _ ihl ihr => exact ihl.append_op _ ihr
  | term _ ih => exact ih
  | sum _ _ _ ihl ihr => exact ihl.append_op _ ihr

theorem Sentence.exists_op_of_mem {category : Category} {tokens : List Token} {tree : Expr}
    (h : Sentence category tokens tree) {symbol : String} (hm : .op symbol ∈ tokens) :
    ∃ op : BinOp, symbol = op.symbol := by
  induction h with
  | literal text => simp at hm
  | group _ ih => exact ih (by simpa using hm)
  | factor _ ih => exact ih hm
  | product _ _ _ ihl ihr | sum _ _ _ ihl ihr =>
    rw [List.mem_append, List.mem_cons] at hm
    rcases hm with hm | hm | hm
    · exact ihl hm
    · exact ⟨_, Token.op.inj hm⟩
    · exact ihr hm
  | term _ ih => exact ih hm

end Reckon
