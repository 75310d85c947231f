import Reckon.Expr
import Reckon.Proofs.Literal

/-!
# Listings and values of trees

A listing in postfix order determines its tree, `Expr.postorder_injective`.

The value of a tree can be told without running anything: a literal has the number that its text
denotes, and an operation has the answer of the provider to a call with the values of its operands,
the left one first. The calls of a tree are those of its left operand, those of its right operand
and then its own, and the provider may have its answers depend on the calls before. A run that
evaluates the tree finds this value with these calls, `Expr.Computes.evalFrom`, and no other,
`Expr.computes_of_result_evalFrom`.
-/

namespace Reckon

namespace Expr

/-! ## Listings -/

theorem postorder_ne_nil (tree : Expr) : tree.postorder ≠ [] := by
  cases tree <;> simp [postorder]

/-- Read from its end, a listing in postfix order shows where it begins and which tree it lists. -/
theorem append_postorder_inj {before before' : List Token} {tree tree' : Expr}
    (h : before ++ tree.postorder = before' ++ tree'.postorder) :
    before = before' ∧ tree = tree' := by
  induction tree generalizing before before' tree' with
  | literal text =>
    cases tree' with
    | literal text' =>
      obtain ⟨hb, ht⟩ := List.append_inj' h rfl
      cases ht
      exact ⟨hb, rfl⟩
    | binary op' left' right' =>
      rw [postorder, postorder, ← List.append_assoc] at h
      obtain ⟨-, ht⟩ := List.append_inj' h rfl
      cases ht
  | binary op left right ihl ihr =>
    cases tree' with
    | literal text' =>
      rw [postorder, postorder, ← List.append_assoc] at h
      obtain ⟨-, ht⟩ := List.append_inj' h rfl
      cases ht
    | binary op' left' right' =>
      simp only [postorder, ← List.append_assoc] at h
      obtain ⟨hoperands, hop⟩ := List.append_inj' h rfl
      obtain ⟨hleft, rfl⟩ := ihr hoperands
      obtain ⟨rfl, rfl⟩ := ihl hleft
      obtain rfl := BinOp.symbol_injective (Token.op.inj (List.cons.inj hop).1)
      exact ⟨rfl, rfl⟩

theorem postorder_injective : Function.Injective postorder := by
  intro tree tree' h
  exact (append_postorder_inj (congrArg ([] ++ ·) h)).2

theorem countP_isNum_postorder (tree : Expr) :
    tree.postorder.countP Token.isNum = tree.postorder.countP Token.isOp + 1 := by
  induction tree with
  | literal text => rfl
  | binary op left right ihl ihr =>
    simp only [postorder, List.countP_append, List.countP_singleton, ihl, ihr, Token.isNum,
      Token.isOp, if_true, Bool.false_eq_true, if_false]
    omega

/-! ## Values -/

/-- After earlier calls of the provider, the tree has the value and makes the calls, which are given
in the order in which they are made. -/
inductive Computes (p : Arithmetic) : History → Expr → Float → List Call → Prop
  /-- A literal has the number of its text and makes no call. -/
  | literal {past : History} {text : String} {value : Float}
      (read : (parseNumber text).result = .ok value) : Computes p past (.literal text) value []
  /-- An operation has the answer to a call with the values of its operands. -/
  | binary {past : History} {op : BinOp} {left right : Expr} {a b value : Float}
      {ls rs : List Call} (first : Computes p past left a ls)
      (second : Computes p (ls.reverse ++ past) right b rs)
      (answer : p.answer ((ls ++ rs).reverse ++ past) ⟨op, a, b⟩ = .ok value) :
      Computes p past (.binary op left right) value (ls ++ rs ++ [⟨op, a, b⟩])

variable {p : Arithmetic} {past after : History} {tree : Expr} {value : Float} {calls : List Call}

theorem silent_evalFrom_literal (p : Arithmetic) (past : History) (text : String) :
    ((literal text).evalFrom p past).Silent :=
  (silent_parseNumber text).bind fun _ => Run.silent_pure _

/-- An operation whose operands have values ends with a call. -/
theorem outcome_evalFrom_binary (op : BinOp) {left right : Expr} {a b : Float}
    {pastl pastr : History} (hl : (left.evalFrom p past).result = .ok (a, pastl))
    (hr : (right.evalFrom p pastl).result = .ok (b, pastr)) :
    ((binary op left right).evalFrom p past).result
        = (p.answer pastr ⟨op, a, b⟩).map (fun value => (value, ⟨op, a, b⟩ :: pastr)) ∧
      ((binary op left right).evalFrom p past).calls
        = (left.evalFrom p past).calls ++ (right.evalFrom p pastl).calls ++ [⟨op, a, b⟩] := by
  rw [evalFrom, Run.bind_of_ok hl]
  dsimp only
  rw [Run.bind_of_ok hr]
  dsimp only
  cases hcall : (Run.call p pastr ⟨op, a, b⟩).result with
  | ok value =>
    rw [Run.result_call] at hcall
    rw [Run.bind_of_ok hcall, hcall]
    simp [Except.map]
  | error e =>
    rw [Run.result_call] at hcall
    rw [Run.bind_of_error hcall, hcall]
    simp [Except.map]

/-- Evaluating a tree finds its value and makes its calls. -/
theorem Computes.evalFrom (h : Computes p past tree value calls) :
    (tree.evalFrom p past).result = .ok (value, calls.reverse ++ past) ∧
      (tree.evalFrom p past).calls = calls := by
  induction h with
  | @literal past text value read =>
    refine ⟨?_, silent_evalFrom_literal p past text⟩
    rw [Expr.evalFrom, Run.result_bind, read]
    rfl
  | @binary past op left right a b value ls rs _ _ answer ihl ihr =>
    obtain ⟨hl, hlcalls⟩ := ihl
    obtain ⟨hr, hrcalls⟩ := ihr
    obtain ⟨hresult, hcalls⟩ := outcome_evalFrom_binary op hl hr
    rw [List.reverse_append, List.append_assoc] at answer
    constructor
    · rw [hresult, answer]
      simp [Except.map]
    · rw [hcalls, hlcalls, hrcalls]

/-- What an evaluation finds is the value of the tree. -/
theorem computes_of_result_evalFrom (h : (tree.evalFrom p past).result = .ok (value, after)) :
    Computes p past tree value (tree.evalFrom p past).calls ∧
      after = (tree.evalFrom p past).calls.reverse ++ past := by
  induction tree generalizing past after value with
  | literal text =>
    have hcalls : ((literal text).evalFrom p past).calls = [] := silent_evalFrom_literal p past text
    rw [Expr.evalFrom, Run.result_bind_eq_ok] at h
    obtain ⟨number, hnumber, h⟩ := h
    cases h
    rw [hcalls]
    exact ⟨.literal hnumber, rfl⟩
  | binary op left right ihl ihr =>
    simp only [Expr.evalFrom, Run.result_bind_eq_ok] at h
    obtain ⟨⟨a, pastl⟩, hl, ⟨b, pastr⟩, hr, answer, hcall, h⟩ := h
    cases h
    obtain ⟨-, hcalls⟩ := outcome_evalFrom_binary op hl hr
    obtain ⟨first, rfl⟩ := ihl hl
    obtain ⟨second, rfl⟩ := ihr hr
    rw [hcalls]
    refine ⟨.binary first second ?_, by simp⟩
    rw [List.reverse_append, List.append_assoc]
    exact hcall

/-- The calls of a tree are its operations in postfix order. -/
theorem Computes.map_calls (h : Computes p past tree value calls) :
    calls.map (fun call => Token.op call.op.symbol) = tree.postorder.filter Token.isOp := by
  induction h with
  | literal _ => rfl
  | binary _ _ _ ihl ihr =>
    simp only [postorder, List.map_append, List.filter_append, ihl, ihr]
    rfl

end Expr

end Reckon
