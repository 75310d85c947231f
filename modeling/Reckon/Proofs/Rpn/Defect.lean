import Reckon.Proofs.Rpn.Conservation
import Reckon.Proofs.Rpn.Reduction

/-!
# The first defect of a sequence

A reduction takes the tokens one after the other, and five things can be wrong with a token: it is a
parenthesis, it is a literal without a number, its symbol is not in the table, its operands are
missing, or the provider cannot answer its call. Several of them can hold at once, and several
tokens can be defective. The error is that of the first defect of the first defective token,
whatever follows; the provider has then been called once for each operator before. Tokens without a
defect list a forest, and have a value if it is a single tree. Main statement:
`reduction_stops_at_first_defect`.
-/

namespace Reckon

namespace Rpn

open Reduction (Forest)

/-- A token behind the tokens `before` is defective: it has the error, and the provider is asked for
the calls in vain. -/
inductive Defect (p : Arithmetic) (past : History) (before : List Token) :
    Token → EvalError → List Call → Prop
  /-- There are no parentheses in postfix order. -/
  | lparen : Defect p past before .lparen .invalidExpression []
  /-- There are no parentheses in postfix order. -/
  | rparen : Defect p past before .rparen .invalidExpression []
  /-- The literal does not denote a number. -/
  | literal {text : String} (rejected : ∀ value, (parseNumber text).result ≠ .ok value) :
      Defect p past before (.num text) .invalidExpression []
  /-- The symbol is that of no operator, whether there are operands or not. -/
  | symbol {symbol : String} (unknown : ∀ operator, (symbol, operator) ∉ Operator.table) :
      Defect p past before (.op symbol) (.unknownOperator symbol) []
  /-- The tokens before leave less than two operands. -/
  | operands {symbol : String} {operator : Operator} (row : (symbol, operator) ∈ Operator.table)
      (few : before.countP Token.isNum < before.countP Token.isOp + 2) :
      Defect p past before (.op symbol) .invalidExpression []
  /-- The provider has no answer to the call with the values of the two latest trees. -/
  | answer {symbol : String} {operator : Operator} {left right : Float} {stack : List Float}
      {calls : List Call} {e : EvalError} (row : (symbol, operator) ∈ Operator.table)
      (operands : Forest p past before (right :: left :: stack) calls)
      (fails : p.answer (calls.reverse ++ past) ⟨operator.kind, left, right⟩ = .error e) :
      Defect p past before (.op symbol) e [⟨operator.kind, left, right⟩]

/-- None of the tokens is defective. -/
def Faultless (p : Arithmetic) (past : History) (tokens : List Token) : Prop :=
  ∀ before token after, tokens = before ++ token :: after →
    ∀ e attempt, ¬ Defect p past before token e attempt

/-- The token behind the tokens `before` is the first defective one. -/
structure FirstDefect (p : Arithmetic) (past : History) (tokens before : List Token) (token : Token)
    (e : EvalError) (attempt : List Call) : Prop where
  /-- The token stands there, and anything may follow. -/
  split : ∃ after, tokens = before ++ token :: after
  /-- No token before is defective. -/
  faultless : Faultless p past before
  /-- The token is defective. -/
  defect : Defect p past before token e attempt

variable {p : Arithmetic} {past : History} {tokens before : List Token} {token : Token}
  {stack : List Float} {calls attempt : List Call} {e : EvalError}

/-! ## Steps -/

/-- At a defective token a reduction ends with the error of the defect. -/
theorem Defect.step (h : Defect p past before token e attempt)
    (hforest : Forest p past before stack calls) :
    (Reduction.step p ⟨stack, calls.reverse ++ past⟩ token).result = .error e ∧
      (Reduction.step p ⟨stack, calls.reverse ++ past⟩ token).calls = attempt := by
  cases h with
  | lparen | rparen => exact ⟨rfl, rfl⟩
  | @literal text rejected =>
    cases hread : (parseNumber text).result with
    | ok value => exact absurd hread (rejected value)
    | error e =>
      obtain rfl := error_of_result_parseNumber hread
      have hagrees := Reduction.step_num_of_error p ⟨stack, calls.reverse ++ past⟩ hread
      exact ⟨hagrees.result_eq, hagrees.calls_eq⟩
  | @symbol symbol unknown =>
    have hop := Operator.lookup_eq_error_iff.mpr ⟨unknown, rfl⟩
    rw [Reduction.step, hop]
    exact ⟨rfl, rfl⟩
  | @operands symbol operator row few =>
    have hcount := hforest.countP_isNum
    have hfew : stack.length < 2 := by omega
    have hop := Operator.lookup_eq_ok_iff.mpr row
    have hagrees := Reduction.step_op_of_few_operands p ⟨stack, calls.reverse ++ past⟩ hop hfew
    exact ⟨hagrees.result_eq, hagrees.calls_eq⟩
  | @answer symbol operator left right stack' calls' _ row operands fails =>
    obtain ⟨rfl, rfl⟩ := hforest.unique operands
    have hop := Operator.lookup_eq_ok_iff.mpr row
    rw [Reduction.step_op_of_operands hop rfl, Run.bind_of_error fails]
    exact ⟨rfl, rfl⟩

/-- A token behind a forest makes a larger forest, or it is defective. -/
theorem Reduction.Forest.extend_or_defect (h : Forest p past before stack calls) (token : Token) :
    (∃ stack' calls', Forest p past (before ++ [token]) stack' calls') ∨
      ∃ e attempt, Defect p past before token e attempt := by
  cases token with
  | lparen => exact .inr ⟨_, _, .lparen⟩
  | rparen => exact .inr ⟨_, _, .rparen⟩
  | num text =>
    cases hread : (parseNumber text).result with
    | ok value => exact .inl ⟨_, _, h.literal hread⟩
    | error e =>
      refine .inr ⟨_, _, .literal fun value hvalue => ?_⟩
      rw [hread] at hvalue
      cases hvalue
  | op symbol =>
    cases hop : Operator.lookup symbol with
    | error e => exact .inr ⟨_, _, .symbol (Operator.lookup_eq_error_iff.mp hop).1⟩
    | ok operator =>
      have row := Operator.lookup_eq_ok_iff.mp hop
      obtain rfl := Operator.eq_symbol_of_lookup hop
      have hcount := h.countP_isNum
      match stack, h, hcount with
      | right :: left :: stack, h, _ =>
        cases hanswer : p.answer (calls.reverse ++ past) ⟨operator.kind, left, right⟩ with
        | ok value => exact .inl ⟨_, _, h.operation hanswer⟩
        | error e => exact .inr ⟨_, _, .answer row h hanswer⟩
      | [_], _, hcount | [], _, hcount =>
        refine .inr ⟨_, _, .operands row ?_⟩
        simp only [List.length_cons, List.length_nil] at hcount
        omega

/-! ## Runs -/

theorem Faultless.of_append {after : List Token} (h : Faultless p past (before ++ after)) :
    Faultless p past before := by
  intro first token rest hsplit
  exact h first token (rest ++ after) (by rw [hsplit]; simp)

/-- Tokens without a defect list a forest. -/
theorem Faultless.exists_forest (h : Faultless p past tokens) :
    ∃ stack calls, Forest p past tokens stack calls := by
  induction tokens using List.reverseRecOn with
  | nil => exact ⟨[], [], .nil⟩
  | append_singleton tokens token ih =>
    obtain ⟨stack, calls, hforest⟩ := ih h.of_append
    rcases hforest.extend_or_defect token with hlarger | ⟨e, attempt, hdefect⟩
    · exact hlarger
    · exact absurd hdefect (h tokens token [] rfl e attempt)

/-- A reduction of a forest comes past every token. -/
theorem Reduction.Forest.faultless (h : Forest p past tokens stack calls) :
    Faultless p past tokens := by
  intro before token after hsplit e attempt hdefect
  obtain ⟨hrun, -⟩ := h.foldlM
  rw [hsplit, List.foldlM_append, Run.result_bind_eq_ok] at hrun
  obtain ⟨⟨stack', past'⟩, hbefore, hrun⟩ := hrun
  obtain ⟨calls', hforest, rfl⟩ := Reduction.exists_forest_of_result_foldlM hbefore
  obtain ⟨herror, -⟩ := hdefect.step hforest
  rw [List.foldlM_cons, Run.result_bind, herror] at hrun
  cases hrun

/-- Tokens with a defect have a first one. -/
theorem exists_firstDefect (h : ¬ Faultless p past tokens) :
    ∃ before token e attempt, FirstDefect p past tokens before token e attempt := by
  induction tokens using List.reverseRecOn with
  | nil =>
    refine absurd (fun before token after hsplit => ?_) h
    simp at hsplit
  | append_singleton tokens token ih =>
    by_cases hbefore : Faultless p past tokens
    · obtain ⟨stack, calls, hforest⟩ := hbefore.exists_forest
      rcases hforest.extend_or_defect token with ⟨_, _, hlarger⟩ | ⟨e, attempt, hdefect⟩
      · exact absurd hlarger.faultless h
      · exact ⟨tokens, token, e, attempt, ⟨[], rfl⟩, hbefore, hdefect⟩
    · obtain ⟨before, first, e, attempt, ⟨after, rfl⟩, hfaultless, hdefect⟩ := ih hbefore
      exact ⟨before, first, e, attempt, ⟨after ++ [token], by simp⟩, hfaultless, hdefect⟩

theorem FirstDefect.outcome (h : FirstDefect p past tokens before token e attempt) :
    (reduceFrom p past tokens).result = .error e ∧
      (reduceFrom p past tokens).calls = (reduceFrom p past before).calls ++ attempt := by
  obtain ⟨⟨after, rfl⟩, hfaultless, hdefect⟩ := h
  obtain ⟨stack, calls, hforest⟩ := hfaultless.exists_forest
  obtain ⟨hrun, hcalls⟩ := hforest.foldlM
  obtain ⟨herror, hattempt⟩ := hdefect.step hforest
  have hstop : ((token :: after).foldlM (Reduction.step p) ⟨stack, calls.reverse ++ past⟩).result
      = .error e := by
    rw [List.foldlM_cons, Run.result_bind, herror]
    rfl
  have hfail : ((before ++ token :: after).foldlM (Reduction.step p) ⟨[], past⟩).result
      = .error e := by
    rw [Run.result_foldlM_append hrun, hstop]
  constructor
  · rw [reduceFrom, Run.bind_of_error hfail]
  · rw [hforest.calls_reduceFrom, reduceFrom, Run.bind_of_error hfail, List.foldlM_append,
      Run.calls_bind_of_ok hrun, hcalls, List.foldlM_cons, Run.bind_of_error herror, hattempt]

/-- A reduction of operators of the table fails at a malformed expression or at a failing call. -/
theorem error_of_result_reduceFrom (hops : Token.Known tokens)
    (h : (reduceFrom p past tokens).result = .error e) :
    e = .invalidExpression ∨ ∃ past call, p.answer past call = .error e := by
  by_cases hfaultless : Faultless p past tokens
  · obtain ⟨stack, calls, hforest⟩ := hfaultless.exists_forest
    rw [hforest.result_reduceFrom] at h
    rcases Reduction.result_finish ⟨stack, calls.reverse ++ past⟩ with ⟨_, -, hr⟩ | ⟨-, hr⟩
    · rw [hr] at h
      cases h
    · exact .inl (Except.error.inj (h.symm.trans hr))
  · obtain ⟨before, token, e', attempt, hfirst⟩ := exists_firstDefect hfaultless
    obtain rfl : e' = e := Except.error.inj (hfirst.outcome.1.symm.trans h)
    obtain ⟨after, rfl⟩ := hfirst.split
    cases hfirst.defect with
    | lparen | rparen | literal | operands => exact .inl rfl
    | answer _ _ fails => exact .inr ⟨_, _, fails⟩
    | @symbol symbol unknown =>
      obtain ⟨kind, rfl⟩ := hops symbol (by simp)
      obtain ⟨n, hop⟩ := Operator.exists_lookup_symbol kind
      exact absurd (Operator.lookup_eq_ok_iff.mp hop) (unknown _)

/-- A reduction ends with the error of the first defect, whatever follows it, and the provider has
been called once for each operator before and then for the defective token, if it is the answer that
fails. Without a defect it ends with a value if there is one literal more than operators, and all of
the operators are called. -/
theorem reduction_stops_at_first_defect (p : Arithmetic) (past : History) (tokens : List Token) :
    (∀ before token e attempt, FirstDefect p past tokens before token e attempt →
        (reduceFrom p past tokens).result = .error e ∧
          (reduceFrom p past tokens).calls = (reduceFrom p past before).calls ++ attempt ∧
          (reduceFrom p past before).calls.map (fun call => Token.op call.op.symbol)
            = before.filter Token.isOp) ∧
      (¬ Faultless p past tokens →
        ∃ before token e attempt, FirstDefect p past tokens before token e attempt) ∧
      (Faultless p past tokens →
        (reduceFrom p past tokens).calls.map (fun call => Token.op call.op.symbol)
            = tokens.filter Token.isOp ∧
          (tokens.countP Token.isNum = tokens.countP Token.isOp + 1 →
            ∃ value, (reduceFrom p past tokens).result = .ok value) ∧
          (tokens.countP Token.isNum ≠ tokens.countP Token.isOp + 1 →
            (reduceFrom p past tokens).result = .error .invalidExpression)) := by
  refine ⟨?_, exists_firstDefect, ?_⟩
  · intro before token e attempt hfirst
    obtain ⟨hresult, hcalls⟩ := hfirst.outcome
    obtain ⟨stack, calls, hforest⟩ := hfirst.faultless.exists_forest
    refine ⟨hresult, hcalls, ?_⟩
    rw [hforest.calls_reduceFrom, hforest.map_calls]
  · intro hfaultless
    obtain ⟨stack, calls, hforest⟩ := hfaultless.exists_forest
    have hcount := hforest.countP_isNum
    have hresult := hforest.result_reduceFrom
    refine ⟨by rw [hforest.calls_reduceFrom, hforest.map_calls], ?_, ?_⟩
    · intro hnumbers
      obtain ⟨value, rfl⟩ : ∃ value, stack = [value] :=
        List.length_eq_one_iff.mp (by omega)
      exact ⟨value, hresult⟩
    · intro hnumbers
      rcases Reduction.result_finish ⟨stack, calls.reverse ++ past⟩ with ⟨_, rfl, -⟩ | ⟨-, herror⟩
      · exact absurd hcount hnumbers
      · rw [hresult, herror]

/-- In `1 0 / ^ (` the division comes first; in `6 2 / ^ (` the symbol, though an operand is missing
too. -/
theorem zero_divisor_and_unknown_symbol :
    (reduceFrom .checked [] [.num "1", .num "0", .op "/", .op "^", .lparen]).result
        = .error .divisionByZero ∧
      (reduceFrom .checked [] [.num "6", .num "2", .op "/", .op "^", .lparen]).result
        = .error (.unknownOperator "^") := by
  have hrow : ("/", (⟨2, .div⟩ : Operator)) ∈ Operator.table := by decide
  have hunknown : ∀ operator, ("^", operator) ∉ Operator.table :=
    (Operator.lookup_eq_error_iff.mp rfl).1
  have hnumbers : Forest .checked [] [.num "1", .num "0"] [0, 1] [] :=
    (Forest.nil.literal (by decide +kernel)).literal (by decide +kernel)
  have hoperands : Forest .checked [] [.num "6", .num "2"] [2, 6] [] :=
    (Forest.nil.literal (by decide +kernel)).literal (by decide +kernel)
  have hanswer : Arithmetic.checked.answer [] ⟨.div, 6, 2⟩ = .ok 3 := by decide +kernel
  have hquotient : Forest .checked [] [.num "6", .num "2", .op "/"] [3] [⟨.div, 6, 2⟩] :=
    hoperands.operation hanswer
  have hzero : FirstDefect .checked [] [.num "1", .num "0", .op "/", .op "^", .lparen]
      [.num "1", .num "0"] (.op "/") .divisionByZero [⟨.div, 1, 0⟩] :=
    ⟨⟨_, rfl⟩, hnumbers.faultless, .answer hrow hnumbers (by decide +kernel)⟩
  have hsymbol : FirstDefect .checked [] [.num "6", .num "2", .op "/", .op "^", .lparen]
      [.num "6", .num "2", .op "/"] (.op "^") (.unknownOperator "^") [] :=
    ⟨⟨_, rfl⟩, hquotient.faultless, .symbol hunknown⟩
  exact ⟨((reduction_stops_at_first_defect _ _ _).1 _ _ _ _ hzero).1,
    ((reduction_stops_at_first_defect _ _ _).1 _ _ _ _ hsymbol).1⟩

end Rpn

end Reckon
