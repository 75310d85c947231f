import Reckon.Evaluate
import Reckon.Proofs.Arithmetic
import Reckon.Proofs.Evaluate.Shortcut

/-!
# Division by zero

Checked arithmetic differs from plain floating-point arithmetic only in that it refuses to divide by
zero. So a checked run is the plain run cut at the first call that divides by zero: it ends there
with that error, whatever the plain run comes to in the end, and without such a call the two have
the same outcome. Main statement: `zero_divisor_cuts_the_run`.
-/

namespace Reckon

namespace Run

variable {α β σ : Type} {checked plain : Run α}

/-- The checked run is the plain one, cut at the first call that divides by zero. -/
structure CutAtZero (checked plain : Run α) : Prop where
  /-- Without a division by zero the two have the same outcome. -/
  agrees : (∀ call ∈ plain.calls, ¬ call.DividesByZero) → checked.Agrees plain
  /-- With a division by zero the checked run fails, and the first of these calls is its last. -/
  cut : (∃ call ∈ plain.calls, call.DividesByZero) →
    checked.result = .error .divisionByZero ∧ ∃ before call after,
      plain.calls = before ++ call :: after ∧ (∀ c ∈ before, ¬ c.DividesByZero) ∧
        call.DividesByZero ∧ checked.calls = before ++ [call]

theorem CutAtZero.of_agrees (hnone : ∀ call ∈ plain.calls, ¬ call.DividesByZero)
    (h : checked.Agrees plain) : checked.CutAtZero plain := by
  refine ⟨fun _ => h, ?_⟩
  rintro ⟨call, hm, hzero⟩
  exact absurd hzero (hnone call hm)

theorem CutAtZero.of_first (before : List Call) (call : Call) (after : List Call)
    (hcalls : plain.calls = before ++ call :: after) (hfirst : ∀ c ∈ before, ¬ c.DividesByZero)
    (hzero : call.DividesByZero) (hresult : checked.result = .error .divisionByZero)
    (hchecked : checked.calls = before ++ [call]) : checked.CutAtZero plain := by
  refine ⟨?_, fun _ => ⟨hresult, before, call, after, hcalls, hfirst, hzero, hchecked⟩⟩
  intro hnone
  have hm : call ∈ plain.calls := by
    rw [hcalls]
    exact List.mem_append_right _ List.mem_cons_self
  exact absurd hzero (hnone call hm)

/-- A run without a call is its own cut. -/
theorem Silent.cutAtZero {r : Run α} (h : r.Silent) : r.CutAtZero r := by
  refine .of_agrees ?_ (.refl r)
  intro call hm
  rw [show r.calls = [] from h] at hm
  cases hm

theorem cutAtZero_call (past : History) (c : Call) :
    (call .checked past c).CutAtZero (call .ieee past c) := by
  by_cases hzero : c.DividesByZero
  · have hresult : (call .checked past c).result = .error .divisionByZero := by
      rw [result_call, Arithmetic.answer_checked, if_pos hzero]
    exact .of_first [] c [] rfl (by simp) hzero hresult rfl
  · have hresult : (call .checked past c).result = (call .ieee past c).result := by
      rw [result_call, Arithmetic.answer_checked, if_neg hzero, result_call]
    exact .of_agrees (by simpa using hzero) ⟨hresult, rfl⟩

/-- Behind a run without a division by zero the cut is where it is in the rest. -/
theorem Agrees.cutAtZero_bind {f g : α → Run β} (h : checked.Agrees plain)
    (hnone : ∀ call ∈ plain.calls, ¬ call.DividesByZero) (hf : ∀ a, (f a).CutAtZero (g a)) :
    (checked >>= f).CutAtZero (plain >>= g) := by
  cases hplain : plain.result with
  | error e =>
    rw [bind_of_error hplain, bind_of_error (h.result_eq.trans hplain)]
    exact .of_agrees hnone ⟨rfl, h.calls_eq⟩
  | ok a =>
    have hchecked := h.result_eq.trans hplain
    have hcalls : (plain >>= g).calls = plain.calls ++ (g a).calls := calls_bind_of_ok hplain g
    have hcalls' : (checked >>= f).calls = plain.calls ++ (f a).calls := by
      rw [calls_bind_of_ok hchecked, h.calls_eq]
    have hresult' : (checked >>= f).result = (f a).result := by rw [bind_of_ok hchecked]
    by_cases hlater : ∃ call ∈ (g a).calls, call.DividesByZero
    · obtain ⟨hfails, before, call, after, hga, hfirst, hzero, hfa⟩ := (hf a).cut hlater
      refine .of_first (plain.calls ++ before) call after ?_ ?_ hzero (hresult'.trans hfails) ?_
      · rw [hcalls, hga, List.append_assoc]
      · exact List.forall_mem_append.mpr ⟨hnone, hfirst⟩
      · rw [hcalls', hfa, List.append_assoc]
    · have hnone' : ∀ call ∈ (g a).calls, ¬ call.DividesByZero :=
        fun call hm hzero => hlater ⟨call, hm, hzero⟩
      have hagrees := (hf a).agrees hnone'
      refine .of_agrees ?_ ⟨?_, ?_⟩
      · rw [hcalls]
        exact List.forall_mem_append.mpr ⟨hnone, hnone'⟩
      · rw [hresult', hagrees.result_eq, bind_of_ok hplain]
      · rw [hcalls', hagrees.calls_eq, hcalls]

/-- In a sequence of runs the cut is in the first run that has one. -/
theorem CutAtZero.bind {f g : α → Run β} (h : checked.CutAtZero plain)
    (hf : ∀ a, (f a).CutAtZero (g a)) : (checked >>= f).CutAtZero (plain >>= g) := by
  by_cases hzero : ∃ call ∈ plain.calls, call.DividesByZero
  · obtain ⟨hfails, before, call, after, hcalls, hfirst, hdivides, hchecked⟩ := h.cut hzero
    -- what the plain run goes on to do does not move its first division by zero
    obtain ⟨rest, hrest⟩ : ∃ rest, (plain >>= g).calls = plain.calls ++ rest := by
      cases hplain : plain.result with
      | ok a => exact ⟨(g a).calls, calls_bind_of_ok hplain g⟩
      | error e => exact ⟨[], by rw [bind_of_error hplain, List.append_nil]⟩
    rw [bind_of_error hfails]
    refine .of_first before call (after ++ rest) ?_ hfirst hdivides rfl hchecked
    rw [hrest, hcalls, List.append_assoc, List.cons_append]
  · have hnone : ∀ call ∈ plain.calls, ¬ call.DividesByZero :=
      fun call hm hdivides => hzero ⟨call, hm, hdivides⟩
    exact (h.agrees hnone).cutAtZero_bind hnone hf

theorem CutAtZero.foldlM {f g : σ → α → Run σ} (h : ∀ s a, (f s a).CutAtZero (g s a)) (s : σ)
    (as : List α) : (as.foldlM f s).CutAtZero (as.foldlM g s) := by
  induction as generalizing s with
  | nil => exact (silent_pure s).cutAtZero
  | cons a as ih =>
    rw [List.foldlM_cons, List.foldlM_cons]
    exact (h s a).bind ih

end Run

open Run (silent_pure silent_note silent_fail silent_ofExcept)

/-! ## Reductions -/

namespace Rpn

theorem Reduction.cutAtZero_step (state : Reduction) (token : Token) :
    (step .checked state token).CutAtZero (step .ieee state token) := by
  cases token with
  | num text =>
    have hsilent : (step .checked state (.num text)).Silent :=
      (silent_parseNumber text).bind fun _ => silent_pure _
    exact hsilent.cutAtZero
  | op symbol =>
    refine (silent_ofExcept _).cutAtZero.bind fun operator => ?_
    match state.stack with
    | right :: left :: stack =>
      refine (Run.cutAtZero_call _ _).bind fun value => ?_
      exact (silent_pure _).cutAtZero
    | [_] | [] =>
      have hmissing := (silent_note (.missingOperand symbol)).bind fun _ =>
        silent_fail (α := Reduction) .invalidExpression
      exact hmissing.cutAtZero
  | lparen | rparen =>
    have hstray := (silent_note .strayParenthesis).bind fun _ =>
      silent_fail (α := Reduction) .invalidExpression
    exact hstray.cutAtZero

theorem cutAtZero_reduceFrom (past : History) (tokens : List Token) :
    (reduceFrom .checked past tokens).CutAtZero (reduceFrom .ieee past tokens) := by
  refine (Run.CutAtZero.foldlM Reduction.cutAtZero_step _ _).bind fun state => ?_
  exact (Reduction.silent_finish state).cutAtZero

end Rpn

/-! ## Evaluations -/

theorem cutAtZero_evaluateStages (past : History) (source : String) :
    (evaluateStages .checked past source).CutAtZero (evaluateStages .ieee past source) := by
  refine (silent_tokenize source).cutAtZero.bind fun tokens => ?_
  refine (Rpn.silent_ofInfix tokens).cutAtZero.bind fun listing => ?_
  exact Rpn.cutAtZero_reduceFrom past listing

theorem cutAtZero_evaluateFrom (past : History) (source : String) :
    (evaluateFrom .checked past source).CutAtZero (evaluateFrom .ieee past source) := by
  unfold evaluateFrom
  by_cases hempty : (Text.trim source).isEmpty = true
  · rw [if_pos hempty, if_pos hempty]
    exact (silent_fail _).cutAtZero
  · rw [if_neg hempty, if_neg hempty]
    refine (silent_negativeLiteral? _).cutAtZero.bind fun found => ?_
    cases found with
    | some value =>
      have hsilent := (silent_note (.bareNegative (Text.trim source))).bind fun _ =>
        silent_pure value
      exact hsilent.cutAtZero
    | none =>
      refine (cutAtZero_evaluateStages past source).bind fun value => ?_
      have hsilent := (silent_note (.evaluated source value)).bind fun _ => silent_pure value
      exact hsilent.cutAtZero

/-- A reduction and an evaluation in checked arithmetic are those in plain arithmetic, cut at the
first call that divides by zero. -/
theorem zero_divisor_cuts_the_run (past : History) :
    (∀ tokens, (Rpn.reduceFrom .checked past tokens).CutAtZero
      (Rpn.reduceFrom .ieee past tokens)) ∧
    ∀ source, (evaluateFrom .checked past source).CutAtZero (evaluateFrom .ieee past source) :=
  ⟨Rpn.cutAtZero_reduceFrom past, cutAtZero_evaluateFrom past⟩

/-- A negative zero is a divisor that is refused, ahead of the operand that is left over in the end,
and a NaN is none. -/
theorem negative_zero_and_nan_as_divisors :
    (evaluateFrom .ieee [] "3 1 / (0 * -2)").result = .error .invalidExpression ∧
      (evaluateFrom .checked [] "3 1 / (0 * -2)").result = .error .divisionByZero ∧
      (Rpn.reduceFrom .ieee [] [.num "1", .num "1e308", .num "10", .op "*", .num "1e308",
        .num "10", .op "*", .op "-", .op "/"]).calls.getLast? = some ⟨.div, 1, 0 / 0⟩ ∧
      (Rpn.reduceFrom .checked [] [.num "1", .num "1e308", .num "10", .op "*", .num "1e308",
        .num "10", .op "*", .op "-", .op "/"]).Agrees
        (Rpn.reduceFrom .ieee [] [.num "1", .num "1e308", .num "10", .op "*", .num "1e308",
          .num "10", .op "*", .op "-", .op "/"]) := by
  obtain ⟨hreduce, hevaluate⟩ := zero_divisor_cuts_the_run []
  have hzero : ∃ call ∈ (evaluateFrom .ieee [] "3 1 / (0 * -2)").calls, call.DividesByZero := by
    have hcalls : (evaluateFrom .ieee [] "3 1 / (0 * -2)").calls
        = [⟨.mul, 0, -2⟩, ⟨.div, 1, -0.0⟩] := by decide +kernel
    rw [hcalls]
    exact ⟨⟨.div, 1, -0.0⟩, by simp, rfl, .inr rfl⟩
  refine ⟨?_, ((hevaluate _).cut hzero).1, by decide +kernel, (hreduce _).agrees ?_⟩
  · decide +kernel
  · decide +kernel

end Reckon
