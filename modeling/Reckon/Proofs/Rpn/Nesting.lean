import Reckon.Proofs.Rpn.Conversion

/-!
# Conversion inside a group

A left parenthesis on the stack hides what waits below it. So tokens that can be converted by
themselves are converted in the same way inside of a group, whether they are a sentence or not, and
the group puts out what they put out. Main statement: `Conversion.result_foldlM_group`.
-/

namespace Reckon.Rpn.Conversion

/-- The state inside a group: what was put out before it and what waits below its left parenthesis
are still there. -/
def inGroup (state : Conversion) (output stack : List Token) : Conversion :=
  ⟨state.output ++ output, state.stack ++ .lparen :: stack⟩

variable {state state' : Conversion} {tokens listing : List Token}

theorem step_inGroup {token : Token} (h : (step state token).result = .ok state')
    (output stack : List Token) :
    (step (state.inGroup output stack) token).result = .ok (state'.inGroup output stack) := by
  cases token with
  | num text =>
    rw [step_num_eq_ok] at h ⊢
    rw [h]
    rfl
  | op symbol =>
    rw [step_op_eq_ok] at h ⊢
    obtain ⟨next, popped, rest, hnext, hs, rfl, hb, hq⟩ := h
    refine ⟨next, popped, rest ++ .lparen :: stack, hnext, ?_, ?_, hb, ?_⟩
    · rw [inGroup, hs, List.append_assoc]
    · simp [inGroup]
    · exact hq.append (quiet_lparen _ stack)
  | lparen =>
    rw [step_lparen_eq_ok] at h ⊢
    rw [h]
    rfl
  | rparen =>
    rw [step_rparen_eq_ok] at h ⊢
    obtain ⟨popped, rest, hs, hp, rfl⟩ := h
    refine ⟨popped, rest ++ .lparen :: stack, ?_, hp, ?_⟩
    · rw [inGroup, hs, List.append_assoc]
      rfl
    · simp [inGroup]

theorem foldlM_inGroup (h : (tokens.foldlM step state).result = .ok state')
    (output stack : List Token) :
    (tokens.foldlM step (state.inGroup output stack)).result
      = .ok (state'.inGroup output stack) := by
  induction tokens generalizing state with
  | nil =>
    cases h
    rfl
  | cons token tokens ih =>
    rw [List.foldlM_cons, Run.result_bind_eq_ok] at h
    obtain ⟨next, hnext, h⟩ := h
    rw [List.foldlM_cons, Run.result_bind, step_inGroup hnext output stack]
    exact ih h

/-- A group of tokens that can be converted puts out what they put out and leaves nothing waiting.
-/
theorem result_foldlM_group (h : (ofInfix tokens).result = .ok listing)
    (output stack : List Token) :
    ((.lparen :: (tokens ++ [.rparen])).foldlM step ⟨output, stack⟩).result
      = .ok ⟨listing.reverse ++ output, stack⟩ := by
  rw [ofInfix, Run.result_bind_eq_ok] at h
  obtain ⟨state, hrun, hfinish⟩ := h
  obtain ⟨hopen, rfl⟩ := finish_eq_ok.mp hfinish
  have hbegin : (step ⟨output, stack⟩ .lparen).result = .ok ⟨output, .lparen :: stack⟩ := rfl
  have hgroup : (tokens.foldlM step ⟨output, .lparen :: stack⟩).result
      = .ok (state.inGroup output stack) := foldlM_inGroup hrun output stack
  have hclose : (step (state.inGroup output stack) .rparen).result
      = .ok ⟨state.stack.reverse ++ (state.output ++ output), stack⟩ :=
    step_rparen_eq_ok.mpr ⟨state.stack, stack, rfl, hopen, rfl⟩
  rw [List.foldlM_cons, Run.result_bind, hbegin, Run.ok_bind, Run.result_foldlM_append hgroup,
    List.foldlM_cons, Run.result_bind, hclose, List.reverse_append, List.reverse_reverse,
    List.append_assoc]
  rfl

end Reckon.Rpn.Conversion
