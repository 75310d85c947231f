import Mathlib.Data.List.Induction
import Reckon.Proofs.Expr
import Reckon.Rpn.Reduction

/-!
# Reduction of trees

Reducing the postfix order of a tree is evaluating the tree, call by call and record by record,
`reduceFrom_postorder`. Conversely the numbers on the stack of a reduction are at all times the
values of trees whose listings make up the tokens so far, `Reduction.Forest`; so only the postfix
order of a tree has a value. Main statement: `reduction_computes_unique_tree`.
-/

namespace Reckon

namespace Rpn

namespace Reduction

variable {p : Arithmetic} {state state' : Reduction}

theorem step_num_of_error {text : String} {e : EvalError} (p : Arithmetic) (state : Reduction)
    (h : (parseNumber text).result = .error e) :
    (step p state (.num text)).Agrees (Run.fail e) :=
  (silent_parseNumber text).bind_agrees_fail h _

/-- An operator takes two numbers off the stack and puts the answer to its call on it. -/
theorem step_op_of_operands {symbol : String} {operator : Operator} {left right : Float}
    {stack : List Float} (hop : Operator.lookup symbol = .ok operator)
    (hs : state.stack = right :: left :: stack) :
    step p state (.op symbol) = do
      let value ← Run.call p state.past ⟨operator.kind, left, right⟩
      return ⟨value :: stack, ⟨operator.kind, left, right⟩ :: state.past⟩ := by
  rw [step, hop, hs]
  rfl

theorem step_op_of_few_operands {symbol : String} {operator : Operator} (p : Arithmetic)
    (state : Reduction) (hop : Operator.lookup symbol = .ok operator)
    (hs : state.stack.length < 2) :
    (step p state (.op symbol)).Agrees (Run.fail .invalidExpression) := by
  rw [step, hop]
  match hstack : state.stack, hs with
  | [_], _ | [], _ => exact ⟨rfl, rfl⟩

/-- Puts the value of a tree on the stack. -/
def push (p : Arithmetic) (state : Reduction) (tree : Expr) : Run Reduction := do
  let (value, past) ← tree.evalFrom p state.past
  return ⟨value :: state.stack, past⟩

theorem foldlM_postorder (tree : Expr) (state : Reduction) :
    tree.postorder.foldlM (step p) state = push p state tree := by
  induction tree generalizing state with
  | literal text =>
    simp only [Expr.postorder, List.foldlM_cons, List.foldlM_nil, bind_pure, step, push,
      Expr.evalFrom, bind_assoc, pure_bind]
  | binary op left right ihl ihr =>
    obtain ⟨n, hop⟩ := Operator.exists_lookup_symbol op
    have hstep : ∀ a b stack past, step p ⟨b :: a :: stack, past⟩ (.op op.symbol) = do
        let value ← Run.call p past ⟨op, a, b⟩
        return ⟨value :: stack, ⟨op, a, b⟩ :: past⟩ :=
      fun a b stack past => step_op_of_operands hop rfl
    simp only [Expr.postorder, List.foldlM_append, ihl, ihr, push, Expr.evalFrom, bind_assoc,
      pure_bind, List.foldlM_cons, List.foldlM_nil, bind_pure, hstep]

/-! ## The trees of a reduction -/

/-- The tokens list a forest, tree after tree. The values of the trees are on the stack, that of the
latest tree first, and the calls are those of the trees, each after the calls of those before. -/
inductive Forest (p : Arithmetic) (past : History) :
    List Token → List Float → List Call → Prop
  /-- No tokens list no trees. -/
  | nil : Forest p past [] [] []
  /-- A tree is listed behind the others. -/
  | tree {tokens : List Token} {stack : List Float} {calls new : List Call} {tree : Expr}
      {value : Float} (before : Forest p past tokens stack calls)
      (computes : tree.Computes p (calls.reverse ++ past) value new) :
      Forest p past (tokens ++ tree.postorder) (value :: stack) (calls ++ new)

variable {past : History} {done : List Token} {stack : List Float} {calls : List Call}

/-- A reduction of a forest leaves the values of its trees. -/
theorem Forest.foldlM (h : Forest p past done stack calls) :
    (done.foldlM (step p) ⟨[], past⟩).result = .ok ⟨stack, calls.reverse ++ past⟩ ∧
      (done.foldlM (step p) ⟨[], past⟩).calls = calls := by
  induction h with
  | nil => exact ⟨rfl, rfl⟩
  | @tree tokens stack calls new tree value before computes ih =>
    obtain ⟨hrun, hcalls⟩ := ih
    obtain ⟨hvalue, hnew⟩ := computes.evalFrom
    constructor
    · rw [Run.result_foldlM_append hrun, foldlM_postorder, push, Run.bind_of_ok hvalue]
      simp
    · rw [List.foldlM_append, Run.calls_bind_of_ok hrun, hcalls, foldlM_postorder, push,
        Run.calls_bind_of_ok hvalue, hnew]
      simp

/-- The tokens leave one value for each tree. -/
theorem Forest.countP_isNum (h : Forest p past done stack calls) :
    done.countP Token.isNum = done.countP Token.isOp + stack.length := by
  induction h with
  | nil => rfl
  | @tree tokens stack calls new tree value before computes ih =>
    rw [List.countP_append, List.countP_append, tree.countP_isNum_postorder, ih, List.length_cons]
    omega

/-- The calls of a forest are its operations in the order in which they are listed. -/
theorem Forest.map_calls (h : Forest p past done stack calls) :
    calls.map (fun call => Token.op call.op.symbol) = done.filter Token.isOp := by
  induction h with
  | nil => rfl
  | tree before computes ih =>
    rw [List.map_append, List.filter_append, ih, computes.map_calls]

/-- A literal is a tree of its own. -/
theorem Forest.literal (h : Forest p past done stack calls) {text : String} {value : Float}
    (read : (parseNumber text).result = .ok value) :
    Forest p past (done ++ [.num text]) (value :: stack) calls := by
  have hliteral : (Expr.literal text).Computes p (calls.reverse ++ past) value [] := .literal read
  have hforest := h.tree hliteral
  rwa [List.append_nil] at hforest

/-- An operation joins the two latest trees. -/
theorem Forest.operation {left right : Float}
    (h : Forest p past done (right :: left :: stack) calls) {op : BinOp} {value : Float}
    (answer : p.answer (calls.reverse ++ past) ⟨op, left, right⟩ = .ok value) :
    Forest p past (done ++ [.op op.symbol]) (value :: stack) (calls ++ [⟨op, left, right⟩]) := by
  -- the latest tree is the right operand and the one before it the left operand
  cases h with
  | @tree _ _ _ rs r _ before second =>
    cases before with
    | @tree tokens _ calls ls l _ before first =>
      simp only [List.reverse_append, List.append_assoc] at second answer
      have hjoined := before.tree (.binary first second (by simpa using answer))
      simpa [Expr.postorder] using hjoined

/-- A step leads from a forest to a forest. -/
theorem Forest.step {token : Token} (h : Forest p past done stack calls)
    (hs : (step p ⟨stack, calls.reverse ++ past⟩ token).result = .ok state') :
    ∃ calls', Forest p past (done ++ [token]) state'.stack calls' ∧
      state'.past = calls'.reverse ++ past := by
  cases token with
  | num text =>
    rw [Reduction.step, Run.result_bind_eq_ok] at hs
    obtain ⟨value, hvalue, hs⟩ := hs
    cases hs
    exact ⟨calls, h.literal hvalue, rfl⟩
  | op symbol =>
    rw [Reduction.step, Run.result_bind_eq_ok] at hs
    obtain ⟨operator, hop, hs⟩ := hs
    obtain rfl := Operator.eq_symbol_of_lookup hop
    match stack, h, hs with
    | right :: left :: stack, h, hs =>
      rw [Run.result_bind_eq_ok] at hs
      obtain ⟨value, hanswer, hs⟩ := hs
      cases hs
      exact ⟨calls ++ [⟨operator.kind, left, right⟩], h.operation hanswer, by simp⟩
    | [_], _, hs | [], _, hs =>
      rw [Run.result_bind] at hs
      cases hs
  | lparen | rparen => cases hs

theorem exists_forest_of_result_foldlM
    (h : (done.foldlM (step p) ⟨[], past⟩).result = .ok state) :
    ∃ calls, Forest p past done state.stack calls ∧ state.past = calls.reverse ++ past := by
  refine Run.foldlM_induction (I := fun done (state : Reduction) => ∃ calls,
    Forest p past done state.stack calls ∧ state.past = calls.reverse ++ past) ⟨[], .nil, rfl⟩ ?_ h
  rintro done ⟨stack, _⟩ token state' ⟨calls, hforest, rfl⟩ hs
  exact hforest.step hs

theorem Forest.unique {stack' : List Float} {calls' : List Call}
    (h : Forest p past done stack calls) (h' : Forest p past done stack' calls') :
    stack = stack' ∧ calls = calls' := by
  obtain ⟨hrun, hcalls⟩ := h.foldlM
  obtain ⟨hrun', hcalls'⟩ := h'.foldlM
  have hstate := Except.ok.inj (hrun.symm.trans hrun')
  exact ⟨congrArg Reduction.stack hstate, hcalls.symm.trans hcalls'⟩

/-- A single number is the value, and anything else is an error. -/
theorem result_finish (state : Reduction) :
    (∃ value, state.stack = [value] ∧ (finish state).result = .ok value) ∨
      (state.stack.length ≠ 1 ∧ (finish state).result = .error .invalidExpression) := by
  unfold finish
  split
  · next value hs => exact .inl ⟨value, hs, rfl⟩
  · next hs =>
    refine .inr ⟨fun hlength => ?_, rfl⟩
    obtain ⟨value, hvalue⟩ := List.length_eq_one_iff.mp hlength
    exact hs value hvalue

theorem silent_finish (state : Reduction) : (finish state).Silent := by
  unfold finish
  split
  · exact Run.silent_pure _
  · exact (Run.silent_note _).bind fun _ => Run.silent_fail _

end Reduction

/-- The trees of a forest have been called when it has been reduced. -/
theorem Reduction.Forest.calls_reduceFrom {p : Arithmetic} {past : History} {tokens : List Token}
    {stack : List Float} {calls : List Call} (h : Forest p past tokens stack calls) :
    (reduceFrom p past tokens).calls = calls := by
  obtain ⟨hrun, hcalls⟩ := h.foldlM
  have hsilent : (finish ⟨stack, calls.reverse ++ past⟩).calls = [] := silent_finish _
  rw [reduceFrom, Run.calls_bind_of_ok hrun, hcalls, hsilent, List.append_nil]

theorem Reduction.Forest.result_reduceFrom {p : Arithmetic} {past : History} {tokens : List Token}
    {stack : List Float} {calls : List Call} (h : Forest p past tokens stack calls) :
    (reduceFrom p past tokens).result
      = (finish ⟨stack, calls.reverse ++ past⟩).result := by
  obtain ⟨hrun, -⟩ := h.foldlM
  rw [reduceFrom, Run.bind_of_ok hrun]

/-- Reducing the postfix order of a tree is evaluating the tree. -/
theorem reduceFrom_postorder (p : Arithmetic) (past : History) (tree : Expr) :
    reduceFrom p past tree.postorder = do
      let (value, _) ← tree.evalFrom p past
      return value := by
  rw [reduceFrom, Reduction.foldlM_postorder, Reduction.push, bind_assoc]
  rfl

/-- Only the postfix order of a tree has a value. -/
theorem exists_tree_of_result_reduceFrom {p : Arithmetic} {past : History} {tokens : List Token}
    {value : Float} (h : (reduceFrom p past tokens).result = .ok value) :
    ∃ tree : Expr, tokens = tree.postorder := by
  rw [reduceFrom, Run.result_bind_eq_ok] at h
  obtain ⟨⟨stack, _⟩, hrun, hfinish⟩ := h
  obtain ⟨calls, hforest, -⟩ := Reduction.exists_forest_of_result_foldlM hrun
  rcases Reduction.result_finish ⟨stack, _⟩ with ⟨value', rfl, -⟩ | ⟨-, herror⟩
  · cases hforest with
    | tree before computes =>
      cases before
      exact ⟨_, rfl⟩
  · rw [herror] at hfinish
    cases hfinish

/-- A sequence has a value exactly if it is the postfix order of a tree with this value. There is no
other such tree, and the provider is called once for each operation, in postfix order and with the
value of the left operand first. -/
theorem reduction_computes_unique_tree (p : Arithmetic) (past : History) (tokens : List Token)
    (value : Float) :
    ((reduceFrom p past tokens).result = .ok value ↔
        ∃ tree calls, tokens = Expr.postorder tree ∧ tree.Computes p past value calls) ∧
      ∀ tree calls, tokens = Expr.postorder tree → tree.Computes p past value calls →
        (reduceFrom p past tokens).calls = calls ∧
          calls.map (fun call => Token.op call.op.symbol) = tokens.filter Token.isOp ∧
          ∀ tree', tokens = Expr.postorder tree' → tree' = tree := by
  constructor
  · constructor
    · intro h
      obtain ⟨tree, rfl⟩ := exists_tree_of_result_reduceFrom h
      rw [reduceFrom_postorder, Run.result_bind_eq_ok] at h
      obtain ⟨⟨value', after⟩, htree, h⟩ := h
      obtain rfl : value' = value := Except.ok.inj h
      exact ⟨tree, _, rfl, (Expr.computes_of_result_evalFrom htree).1⟩
    · rintro ⟨tree, calls, rfl, hcomputes⟩
      obtain ⟨htree, -⟩ := hcomputes.evalFrom
      rw [reduceFrom_postorder, Run.result_bind, htree]
      rfl
  · rintro tree calls rfl hcomputes
    obtain ⟨htree, hcalls⟩ := hcomputes.evalFrom
    refine ⟨?_, hcomputes.map_calls, ?_⟩
    · rw [reduceFrom_postorder, Run.calls_bind_of_ok htree, hcalls]
      exact List.append_nil calls
    · intro tree' hlisted
      exact (Expr.postorder_injective hlisted).symm

/-- The first number of `10 4 -` is the left operand. -/
theorem difference_of_two_literals :
    (reduceFrom .checked [] [.num "10", .num "4", .op "-"]).result = .ok 6 ∧
      (reduceFrom .checked [] [.num "10", .num "4", .op "-"]).calls = [⟨.sub, 10, 4⟩] := by
  have hcomputes : (Expr.binary .sub (.literal "10") (.literal "4")).Computes .checked [] 6
      [⟨.sub, 10, 4⟩] :=
    .binary (.literal (by decide +kernel)) (.literal (by decide +kernel)) (by decide +kernel)
  obtain ⟨hvalue, hcalls⟩ :=
    reduction_computes_unique_tree .checked [] [.num "10", .num "4", .op "-"] 6
  exact ⟨hvalue.mpr ⟨_, _, rfl, hcomputes⟩, (hcalls _ _ rfl hcomputes).1⟩

end Rpn

end Reckon
