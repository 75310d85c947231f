import Reckon.Proofs.Evaluate.Acceptance
import Reckon.Proofs.Literal
import Reckon.Proofs.Token.Context

/-!
# Accounting for the tokens

A text with a value has been used up, whether it is a sentence or not. Each of its literals denotes
a number, each of its operators has been called once, and there is one literal more than operators.
A minus sign where an operand is expected is no operator: it is read as the sign of a literal, and
alone it would be a literal without a number. So a literal stands directly behind it. Main
statement: `accepted_text_is_used_up`.
-/

namespace Reckon

/-! ## Trees with a value -/

namespace Expr

variable {p : Arithmetic} {tree : Expr} {past after : History} {value : Float}

theorem exists_result_parseNumber (h : (tree.evalFrom p past).result = .ok (value, after))
    {text : String} (hm : .num text ∈ tree.postorder) :
    ∃ number, (parseNumber text).result = .ok number := by
  induction tree generalizing past after value with
  | literal text' =>
    simp only [postorder, List.mem_singleton, Token.num.injEq] at hm
    subst hm
    simp only [evalFrom, Run.result_bind_eq_ok] at h
    obtain ⟨number, hnumber, -⟩ := h
    exact ⟨number, hnumber⟩
  | binary op left right ihl ihr =>
    simp only [evalFrom, Run.result_bind_eq_ok] at h
    obtain ⟨⟨a, pastl⟩, hl, ⟨b, pastr⟩, hr, -⟩ := h
    simp only [postorder, List.mem_append, List.mem_singleton, reduceCtorEq, or_false] at hm
    rcases hm with hm | hm
    · exact ihl hl hm
    · exact ihr hr hm

theorem countP_calls_evalFrom (h : (tree.evalFrom p past).result = .ok (value, after))
    (op : BinOp) :
    (tree.evalFrom p past).calls.countP (fun call => call.op = op)
      = tree.postorder.count (.op op.symbol) := by
  have hop : ∀ call : Call,
      decide (call.op = op) = (Token.op call.op.symbol == .op op.symbol) := by
    intro call
    rw [Bool.eq_iff_iff, decide_eq_true_eq, beq_iff_eq, Token.op.injEq,
      BinOp.symbol_injective.eq_iff]
  calc (tree.evalFrom p past).calls.countP (fun call => call.op = op)
      = ((tree.evalFrom p past).calls.map fun call => Token.op call.op.symbol).count
          (.op op.symbol) := by
        rw [List.count, List.countP_map]
        exact congrArg (List.countP · _) (funext hop)
    _ = (tree.postorder.filter Token.isOp).count (.op op.symbol) := by
        rw [(computes_of_result_evalFrom h).1.map_calls]
    _ = tree.postorder.count (.op op.symbol) := List.count_filter rfl

end Expr

/-! ## Signs -/

/-- An operand is expected behind the characters at the start of the text. -/
def OperandPosition (source : String) (before : List Char) : Prop :=
  ∃ lexer, (before.foldlM (Lexer.step source) Lexer.initial).result = .ok lexer ∧
    lexer.expectsOperand = true

theorem OperandPosition.exists_scan {source : String} {before rest : List Char}
    (h : OperandPosition source before) (hs : source.toList = before ++ rest) :
    ∃ scan, before.foldlM Scan.step Scan.initial = .ok scan ∧
      expectsOperandAfter scan.tokens = true := by
  obtain ⟨lexer, hlexer, he⟩ := h
  obtain ⟨scan, hscan, hfollows⟩ := (Lexer.tracks_foldlM hs).exists_of_result hlexer
  exact ⟨scan, hscan, hfollows.expectsOperand_eq.symm.trans he⟩

/-- A minus sign where an operand is expected is the sign of a literal, with the digits and points
that stand directly behind it. -/
theorem num_mem_of_operandPosition {source : String} {before rest : List Char}
    {tokens : List Token} (hread : Scan.read source.toList = .ok tokens)
    (hs : source.toList = before ++ '-' :: rest) (h : OperandPosition source before) :
    .num (String.ofList ('-' :: rest.takeWhile isLiteralChar)) ∈ tokens := by
  obtain ⟨scan, hscan, he⟩ := h.exists_scan hs
  obtain ⟨last, hlast, ht⟩ := Scan.read_eq_ok_iff.mp hread
  rw [hs, List.foldlM_append, hscan, Run.ok_bind, List.foldlM_cons, Scan.step_sign he,
    Scan.pending_eq_nil he, Run.ok_bind] at hlast
  have hmem := Scan.num_mem_of_foldlM (by simp) hlast
  rw [ht, Scan.tokens_initial, List.append_nil, List.mem_reverse] at hmem
  exact hmem

/-- A text with a value is used up: its literals denote numbers, its operators are called once each,
there is one literal more than operators, and each sign has its literal. -/
theorem accepted_text_is_used_up {p : Arithmetic} {past : History} {source : String}
    {value : Float} (h : (evaluateFrom p past source).result = .ok value) :
    ∃ tokens, (tokenize source).result = .ok tokens ∧
      (∀ text, .num text ∈ tokens → ∃ number, (parseNumber text).result = .ok number) ∧
      tokens.countP Token.isNum = tokens.countP Token.isOp + 1 ∧
      (∀ op : BinOp, (evaluateFrom p past source).calls.countP (fun call => call.op = op)
        = tokens.count (.op op.symbol)) ∧
      ∀ before rest, source.toList = before ++ '-' :: rest → OperandPosition source before →
        IsLiteralText (String.ofList (rest.takeWhile isLiteralChar)) := by
  obtain ⟨tokens, tree, hread, hconvert, hagrees⟩ := exists_tree_of_result_evaluateFrom h
  have hvalue := hagrees.result_eq.symm.trans h
  rw [Run.result_bind_eq_ok] at hvalue
  obtain ⟨⟨value', after⟩, htree, -⟩ := hvalue
  have hcalls : (evaluateFrom p past source).calls = (tree.evalFrom p past).calls := by
    rw [hagrees.calls_eq, Run.calls_bind_of_ok htree]
    exact List.append_nil _
  have hnumbers : ∀ text, .num text ∈ tokens →
      ∃ number, (parseNumber text).result = .ok number := by
    intro text hm
    apply Expr.exists_result_parseNumber htree
    exact (Rpn.mem_iff_of_result_ofInfix hconvert (by simp) (by simp)).mpr hm
  refine ⟨tokens, (result_tokenize source).trans hread, hnumbers, ?_, ?_, ?_⟩
  · rw [← Rpn.countP_of_result_ofInfix hconvert rfl rfl,
      ← Rpn.countP_of_result_ofInfix hconvert rfl rfl]
    exact tree.countP_isNum_postorder
  · intro op
    rw [hcalls, Expr.countP_calls_evalFrom htree]
    exact Rpn.countP_of_result_ofInfix hconvert rfl rfl
  · intro before rest hs hposition
    obtain ⟨number, hnumber⟩ := hnumbers _ (num_mem_of_operandPosition hread hs hposition)
    exact isLiteralText_of_negative (fun c hc => List.mem_takeWhile_imp hc) hnumber

theorem sign_and_operator_in_no_sentence :
    (evaluateFrom .checked [] "-2(3-)").result = .ok (-5) ∧
      (evaluateFrom .checked [] "-2(3-)").calls.countP (fun call => call.op = .sub) = 1 ∧
      OperandPosition "-2(3-)" [] ∧ IsLiteralText "2" := by
  have hvalue : (evaluateFrom .checked [] "-2(3-)").result = .ok (-5) :=
    Run.result_eq_ok_of_toOption (by decide +kernel)
  have hread : (tokenize "-2(3-)").result = .ok [.num "-2", .lparen, .num "3", .op "-", .rparen] :=
    rfl
  have hstart : OperandPosition "-2(3-)" [] := ⟨Lexer.initial, rfl, rfl⟩
  obtain ⟨tokens, htokens, -, -, hcalls, hsigns⟩ := accepted_text_is_used_up hvalue
  obtain rfl := Except.ok.inj (hread.symm.trans htokens)
  exact ⟨hvalue, hcalls .sub, hstart, hsigns [] ['2', '(', '3', '-', ')'] rfl hstart⟩

end Reckon
