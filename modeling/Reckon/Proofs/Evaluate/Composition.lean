import Reckon.Proofs.Evaluate.Sentences
import Reckon.Proofs.Token.Context

/-!
# Composition of expressions

A text that has a value can be put in parentheses and used as an operand, whether it is a sentence
of the grammar or not, and whether its value was found by the stages or by the shortcut. The
operands are evaluated one after the other as they would be alone, and then the operation is called
once. This needs a provider whose answers depend on nothing but the operands; with another one the
right operand could get other answers after the left one. Main statement:
`evaluateWith_of_parenthesized`.
-/

namespace Reckon

/-- The text is another one in parentheses, with any blanks around the parentheses. -/
def Parenthesized (text inner : String) : Prop :=
  ∃ before first last after : String,
    text = before ++ "(" ++ first ++ inner ++ last ++ ")" ++ after ∧
      Text.IsBlank before ∧ Text.IsBlank first ∧ Text.IsBlank last ∧ Text.IsBlank after

/-! ## Reading -/

theorem Scan.reads_parenthesized {scan : Scan} {text inner : String} {tokens : List Token}
    (h : Parenthesized text inner) (hread : read inner.toList = .ok tokens) :
    scan.Reads text.toList (.lparen :: (tokens ++ [.rparen])) := by
  obtain ⟨before, first, last, after, rfl, hbefore, hfirst, hlast, hafter⟩ := h
  have hbegin : scan.Reads before.toList [] := reads_blanks hbefore
  have hopen := hbegin.append fun scan' _ => reads_lparen scan'
  have hgap := hopen.append fun scan' _ => reads_blanks hfirst
  -- behind a left parenthesis the text is read as at the start
  have hinner := hgap.append fun scan' ht => reads_of_read hread (by rw [ht]; rfl)
  have hgap' := hinner.append fun scan' _ => reads_blanks hlast
  have hclose := hgap'.append fun scan' _ => reads_rparen scan'
  have hend := hclose.append fun scan' _ => reads_blanks hafter
  simpa using hend

theorem read_parenthesized {text inner : String} {tokens : List Token}
    (h : Parenthesized text inner) (hread : Scan.read inner.toList = .ok tokens) :
    Scan.read text.toList = .ok (.lparen :: (tokens ++ [.rparen])) :=
  Scan.read_eq_ok_iff.mpr (Scan.reads_parenthesized h hread)

theorem read_operation {left right a b : String} {ls rs : List Token} (hl : Parenthesized left a)
    (hr : Parenthesized right b) (ha : Scan.read a.toList = .ok ls)
    (hb : Scan.read b.toList = .ok rs) (op : BinOp) :
    Scan.read (left ++ op.symbol ++ right).toList
      = .ok (.lparen :: (ls ++ [.rparen]) ++ .op op.symbol :: (.lparen :: (rs ++ [.rparen]))) := by
  rw [Scan.read_eq_ok_iff, String.toList_append, String.toList_append]
  have hleft : Scan.initial.Reads left.toList (.lparen :: (ls ++ [.rparen])) :=
    Scan.reads_parenthesized hl ha
  -- a minus behind the right parenthesis is the operator
  have hop := hleft.append fun scan ht => by
    have hexpects : expectsOperandAfter scan.tokens = false := by
      rw [ht]
      simp [expectsOperandAfter, Token.isOp, Token.isLParen]
    exact Scan.reads_op op hexpects
  have hright := hop.append fun scan _ => Scan.reads_parenthesized hr hb
  simpa using hright

/-! ## Converting -/

theorem Rpn.result_ofInfix_parenthesized {tokens listing : List Token}
    (h : (ofInfix tokens).result = .ok listing) :
    (ofInfix (.lparen :: (tokens ++ [.rparen]))).result = .ok listing :=
  (Conversion.lists_group 0 h).result_ofInfix

theorem Rpn.result_ofInfix_operation {ls rs : List Token} {left right : Expr}
    (hl : (ofInfix ls).result = .ok left.postorder)
    (hr : (ofInfix rs).result = .ok right.postorder) (op : BinOp) :
    (ofInfix (.lparen :: (ls ++ [.rparen]) ++
        .op op.symbol :: (.lparen :: (rs ++ [.rparen])))).result
      = .ok (Expr.binary op left right).postorder := by
  obtain ⟨level, hop⟩ := Operator.exists_lookup_symbol op
  exact ((Conversion.lists_group level hl).binary hop
    (Conversion.lists_group (level + 1) hr)).result_ofInfix

/-! ## Evaluating -/

namespace Expr

variable {p : Arithmetic}

/-- With answers that depend on the operands alone, a tree is evaluated alike after any calls. -/
theorem evalFrom_of_memoryless (hp : p.Memoryless) {tree : Expr} {past after : History}
    {value : Float} (h : (tree.evalFrom p past).result = .ok (value, after)) (past' : History) :
    (tree.evalFrom p past').calls = (tree.evalFrom p past).calls ∧
      ∃ after', (tree.evalFrom p past').result = .ok (value, after') := by
  induction tree generalizing past after value past' with
  | literal text =>
    simp only [evalFrom, Run.result_bind_eq_ok] at h
    obtain ⟨number, hnumber, h⟩ := h
    cases h
    simp only [evalFrom, Run.calls_bind_of_ok hnumber, Run.result_bind, hnumber, Run.ok_bind]
    exact ⟨rfl, past', rfl⟩
  | binary op left right ihl ihr =>
    simp only [evalFrom, Run.result_bind_eq_ok] at h
    obtain ⟨⟨a, pastl⟩, hl, ⟨b, pastr⟩, hr, answer, hcall, h⟩ := h
    cases h
    obtain ⟨hcallsl, pastl', hl'⟩ := ihl hl past'
    obtain ⟨hcallsr, pastr', hr'⟩ := ihr hr pastl'
    have hcall' : (Run.call p pastr' ⟨op, a, b⟩).result = .ok value := by
      rw [Run.result_call, hp, ← hp pastr]
      exact hcall
    constructor
    · simp only [evalFrom, Run.calls_bind_of_ok hl, Run.calls_bind_of_ok hr,
        Run.calls_bind_of_ok hcall, Run.calls_bind_of_ok hl', Run.calls_bind_of_ok hr',
        Run.calls_bind_of_ok hcall', hcallsl, hcallsr]
      rfl
    · simp only [evalFrom, Run.result_bind, hl', hr', hcall', Run.ok_bind]
      exact ⟨_, rfl⟩

theorem exists_result_evalFrom {tree : Expr} {value : Float}
    (h : (tree.eval p).result = .ok value) :
    ∃ after, (tree.evalFrom p []).result = .ok (value, after) := by
  rw [eval, Run.result_bind_eq_ok] at h
  obtain ⟨⟨value', after⟩, hrun, h⟩ := h
  cases h
  exact ⟨after, hrun⟩

theorem calls_eval {tree : Expr} {value : Float} {after : History}
    (h : (tree.evalFrom p []).result = .ok (value, after)) :
    (tree.eval p).calls = (tree.evalFrom p []).calls := by
  rw [eval, Run.calls_bind_of_ok h]
  exact List.append_nil _

/-- An operation has the answer to its call, which follows the calls of its operands. -/
theorem eval_binary (hp : p.Memoryless) {left right : Expr} {a b : Float}
    (hl : (left.eval p).result = .ok a) (hr : (right.eval p).result = .ok b) (op : BinOp) :
    ((binary op left right).eval p).result = p.answer [] ⟨op, a, b⟩ ∧
      ((binary op left right).eval p).calls
        = (left.eval p).calls ++ (right.eval p).calls ++ [⟨op, a, b⟩] := by
  obtain ⟨pastl, hl⟩ := exists_result_evalFrom hl
  obtain ⟨pastr, hr⟩ := exists_result_evalFrom hr
  obtain ⟨hcallsr, pastr', hr'⟩ := evalFrom_of_memoryless hp hr pastl
  rw [calls_eval hl, calls_eval hr, eval, evalFrom]
  simp only [bind_assoc, Run.result_bind, hl, hr', Run.ok_bind, Run.calls_bind_of_ok hl,
    Run.calls_bind_of_ok hr', hcallsr, Run.result_call, hp pastr']
  constructor
  · cases p.answer [] ⟨op, a, b⟩ <;> rfl
  · have hcall : (Run.call p pastr' ⟨op, a, b⟩ >>= fun value =>
        (pure (value, ⟨op, a, b⟩ :: pastr') : Run (Float × History)) >>= fun x => pure x.1).calls
          = [⟨op, a, b⟩] := by
      cases hanswer : (Run.call p pastr' ⟨op, a, b⟩).result with
      | ok value =>
        rw [Run.calls_bind_of_ok hanswer]
        rfl
      | error e =>
        rw [Run.bind_of_error hanswer]
        rfl
    rw [List.append_assoc]
    exact congrArg _ (congrArg _ hcall)

end Expr

/-- An operation on two texts in parentheses is called on their values, after their own calls. A
text in parentheses has its own outcome. -/
theorem evaluateWith_of_parenthesized {p : Arithmetic} (hp : p.Memoryless)
    {left right a b : String} {x y : Float} (ha : (evaluateWith p a).result = .ok x)
    (hb : (evaluateWith p b).result = .ok y) (hl : Parenthesized left a)
    (hr : Parenthesized right b) (op : BinOp) :
    (evaluateWith p (left ++ op.symbol ++ right)).result = p.answer [] ⟨op, x, y⟩ ∧
      (evaluateWith p (left ++ op.symbol ++ right)).calls
        = (evaluateWith p a).calls ++ (evaluateWith p b).calls ++ [⟨op, x, y⟩] ∧
      (evaluateWith p left).Agrees (evaluateWith p a) := by
  obtain ⟨ls, lefttree, hls, hlconvert, hlagrees⟩ := exists_tree_of_result_evaluateFrom ha
  obtain ⟨rs, righttree, hrs, hrconvert, hragrees⟩ := exists_tree_of_result_evaluateFrom hb
  have hx : (lefttree.eval p).result = .ok x := by
    rw [← ha]
    exact hlagrees.result_eq.symm
  have hy : (righttree.eval p).result = .ok y := by
    rw [← hb]
    exact hragrees.result_eq.symm
  have hwhole : (evaluateWith p (left ++ op.symbol ++ right)).Agrees
      ((Expr.binary op lefttree righttree).eval p) :=
    evaluateFrom_of_postorder (read_operation hl hr hls hrs op)
      (Rpn.result_ofInfix_operation hlconvert hrconvert op) p []
  have hpart : (evaluateWith p left).Agrees (lefttree.eval p) :=
    evaluateFrom_of_postorder (read_parenthesized hl hls)
      (Rpn.result_ofInfix_parenthesized hlconvert) p []
  obtain ⟨hresult, hcalls⟩ := Expr.eval_binary hp hx hy op
  refine ⟨?_, ?_, ?_⟩
  · rw [hwhole.result_eq, hresult]
  · have hlcalls : (evaluateWith p a).calls = (lefttree.eval p).calls := hlagrees.calls_eq
    have hrcalls : (evaluateWith p b).calls = (righttree.eval p).calls := hragrees.calls_eq
    rw [hwhole.calls_eq, hcalls, hlcalls, hrcalls]
  · exact hpart.trans hlagrees.symm

theorem division_of_no_sentence_by_negative_zero :
    Arithmetic.checked.Memoryless ∧ (evaluateWith .checked "2 3 +").result = .ok 5 ∧
      (evaluateWith .checked "-0").result = .ok (-0.0) ∧ Parenthesized "( 2 3 +) " "2 3 +" ∧
      Parenthesized "\n(-0 )" "-0" ∧
      (evaluateWith .checked "( 2 3 +) /\n(-0 )").result = .error .divisionByZero ∧
      (evaluateWith .checked "( 2 3 +) /\n(-0 )").calls = [⟨.add, 2, 3⟩, ⟨.div, 5, -0.0⟩] := by
  have ha : (evaluateWith .checked "2 3 +").result = .ok 5 :=
    Run.result_eq_ok_of_toOption (by decide +kernel)
  have hb : (evaluateWith .checked "-0").result = .ok (-0.0) :=
    Run.result_eq_ok_of_toOption (by decide +kernel)
  have hl : Parenthesized "( 2 3 +) " "2 3 +" :=
    ⟨"", " ", "", " ", rfl, List.all_eq_true.mp rfl, List.all_eq_true.mp rfl,
      List.all_eq_true.mp rfl, List.all_eq_true.mp rfl⟩
  have hr : Parenthesized "\n(-0 )" "-0" :=
    ⟨"\n", "", " ", "", rfl, List.all_eq_true.mp rfl, List.all_eq_true.mp rfl,
      List.all_eq_true.mp rfl, List.all_eq_true.mp rfl⟩
  obtain ⟨hresult, hcalls, -⟩ :=
    evaluateWith_of_parenthesized Arithmetic.memoryless_checked ha hb hl hr .div
  have hcallsa : (evaluateWith .checked "2 3 +").calls = [⟨.add, 2, 3⟩] := by decide +kernel
  have hcallsb : (evaluateWith .checked "-0").calls = [] := by decide +kernel
  refine ⟨Arithmetic.memoryless_checked, ha, hb, hl, hr, hresult.trans ?_, hcalls.trans ?_⟩
  · have hzero : (-0.0 : Float) == 0.0 := by decide +kernel
    show (if (-0.0 : Float) == 0.0 then Except.error EvalError.divisionByZero
      else Except.ok ((5 : Float) / -0.0)) = _
    exact if_pos hzero
  · rw [hcallsa, hcallsb]
    rfl

end Reckon
