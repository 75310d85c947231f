import Reckon.Arithmetic

/-!
# Operators

An operator has a precedence and an operation. The table gives the operator of each symbol; all of
them are left associative, so of two operators of one precedence the earlier is carried out first.
-/

namespace Reckon

/-- The symbol of an operation. -/
def BinOp.symbol : BinOp → String
  | .add => "+"
  | .sub => "-"
  | .mul => "*"
  | .div => "/"

/-- An operator between two operands. -/
structure Operator where
  /-- How tightly the operator binds: a larger number binds more tightly. -/
  precedence : Nat
  /-- What the operator computes. -/
  kind : BinOp
  deriving DecidableEq

namespace Operator

/-- Whether an operator that is waiting is carried out before the next one, which stands to its
right: it binds at least as tightly. -/
def goesBefore (waiting next : Operator) : Bool :=
  next.precedence ≤ waiting.precedence

/-- The operators by their symbols. -/
def table : List (String × Operator) :=
  [("*", ⟨2, .mul⟩), ("+", ⟨1, .add⟩), ("-", ⟨1, .sub⟩), ("/", ⟨2, .div⟩)]

/-- The operator of a symbol, if the table has one. -/
def find? (symbol : String) : Option Operator :=
  table.lookup symbol

/-- The operator of a symbol, or an error that names the symbol. -/
def lookup (symbol : String) : Except EvalError Operator :=
  match find? symbol with
  | some op => .ok op
  | none => .error (.unknownOperator symbol)

/-- The precedence of the operator of a symbol. -/
def precedenceOf (symbol : String) : Except EvalError Nat :=
  (lookup symbol).map precedence

/-- The search finds exactly the rows of the table. -/
theorem find?_eq_some_iff {symbol : String} {op : Operator} :
    find? symbol = some op ↔ (symbol, op) ∈ table := by
  simp only [find?, table, List.lookup_cons, List.lookup_nil, List.mem_cons,
    Prod.mk.injEq, List.not_mem_nil, or_false]
  by_cases h₁ : symbol = "*"
  · subst h₁; simp [eq_comm]
  by_cases h₂ : symbol = "+"
  · subst h₂; simp [eq_comm]
  by_cases h₃ : symbol = "-"
  · subst h₃; simp [eq_comm]
  by_cases h₄ : symbol = "/"
  · subst h₄; simp [eq_comm]
  have hne : ∀ s : String, symbol ≠ s → (symbol == s) = false := fun s h => by simp [h]
  simp [hne _ h₁, hne _ h₂, hne _ h₃, hne _ h₄, h₁, h₂, h₃, h₄]

theorem lookup_eq_ok_iff {symbol : String} {op : Operator} :
    lookup symbol = .ok op ↔ (symbol, op) ∈ table := by
  rw [← find?_eq_some_iff, lookup]
  cases find? symbol <;> simp

theorem lookup_eq_error_iff {symbol : String} {e : EvalError} :
    lookup symbol = .error e ↔
      (∀ operator, (symbol, operator) ∉ table) ∧ e = .unknownOperator symbol := by
  rw [lookup]
  cases hfind : find? symbol with
  | some operator =>
    have hrow := find?_eq_some_iff.mp hfind
    constructor
    · intro h
      cases h
    · rintro ⟨hnone, -⟩
      exact absurd hrow (hnone operator)
  | none =>
    have hnone : ∀ operator, (symbol, operator) ∉ table := by
      intro operator hrow
      rw [← find?_eq_some_iff, hfind] at hrow
      cases hrow
    constructor
    · intro h
      cases h
      exact ⟨hnone, rfl⟩
    · rintro ⟨-, rfl⟩
      rfl

theorem eq_symbol_of_lookup {symbol : String} {operator : Operator}
    (h : lookup symbol = .ok operator) : symbol = operator.kind.symbol := by
  rw [lookup_eq_ok_iff] at h
  simp only [table, List.mem_cons, Prod.mk.injEq, List.not_mem_nil, or_false] at h
  rcases h with ⟨rfl, rfl⟩ | ⟨rfl, rfl⟩ | ⟨rfl, rfl⟩ | ⟨rfl, rfl⟩ <;> rfl

/-- Every operation has its row under its symbol. -/
theorem exists_lookup_symbol (op : BinOp) : ∃ n, lookup op.symbol = .ok ⟨n, op⟩ := by
  cases op
  · exact ⟨1, rfl⟩
  · exact ⟨1, rfl⟩
  · exact ⟨2, rfl⟩
  · exact ⟨2, rfl⟩

end Operator

theorem BinOp.symbol_injective : Function.Injective BinOp.symbol := by
  intro op op' h
  obtain ⟨n, hn⟩ := Operator.exists_lookup_symbol op
  obtain ⟨m, hm⟩ := Operator.exists_lookup_symbol op'
  rw [h, hm] at hn
  exact (congrArg Operator.kind (Except.ok.inj hn)).symm

end Reckon
