import Reckon.Proofs.Rpn.Conservation

/-!
# Failing conversions

Whether a conversion succeeds is decided by the number of open groups. It fails at the first token
that is no operator of the table or that closes a group which is not open, and otherwise at the end
if a group is still open, `result_ofInfix`.
-/

namespace Reckon

/-- The number of open groups after a token, or the reason why it cannot be converted. -/
def Token.depthAfter (depth : Nat) : Token → Except EvalError Nat
  | num _ => .ok depth
  | op symbol => do
    let _ ← Operator.lookup symbol
    return depth
  | lparen => .ok (depth + 1)
  | rparen => if depth = 0 then .error .mismatchedParentheses else .ok (depth - 1)

namespace Rpn

open Token (depthAfter openAfter)

namespace Conversion

/-- Nothing waits but operators of the table and as many left parentheses as groups are open. -/
structure Sound (depth : Nat) (state : Conversion) : Prop where
  waiting : ∀ token ∈ state.stack, token = .lparen ∨ BindsAtLeast 0 token
  depth_eq : state.stack.count .lparen = depth

theorem sound_initial : Sound 0 initial :=
  ⟨by simp [initial], rfl⟩

variable {depth : Nat} {state : Conversion} {output stack : List Token}

/-- Any stack of this form has a run of operators on top that an operator puts out. -/
theorem exists_split (level : Nat) (h : ∀ token ∈ stack, token = .lparen ∨ BindsAtLeast 0 token) :
    ∃ popped rest, stack = popped ++ rest ∧ (∀ token ∈ popped, BindsAtLeast level token) ∧
      Quiet level rest := by
  induction stack with
  | nil => exact ⟨[], [], rfl, by simp, quiet_nil level⟩
  | cons token stack ih =>
    obtain ⟨htoken, hstack⟩ := List.forall_mem_cons.mp h
    rcases htoken with rfl | ⟨symbol, operator, rfl, ho, -⟩
    · exact ⟨[], _, rfl, by simp, quiet_lparen level stack⟩
    by_cases hl : level ≤ operator.precedence
    · obtain ⟨popped, rest, rfl, hb, hq⟩ := ih hstack
      exact ⟨.op symbol :: popped, rest, rfl,
        List.forall_mem_cons.mpr ⟨⟨symbol, operator, rfl, ho, hl⟩, hb⟩, hq⟩
    · exact ⟨[], _, rfl, by simp, quiet_op ho (Nat.not_le.mp hl) stack⟩

theorem result_close_of_notMem (h : .lparen ∉ stack) :
    (close output stack).result = .error .mismatchedParentheses := by
  induction stack generalizing output with
  | nil => rfl
  | cons token stack ih =>
    rw [List.mem_cons, not_or] at h
    rw [close.eq_2 _ _ _ (Ne.symm h.1)]
    exact ih h.2

theorem result_drain_of_mem (h : .lparen ∈ stack) :
    (drain output stack).result = .error .mismatchedParentheses := by
  induction stack generalizing output with
  | nil => cases h
  | cons token stack ih =>
    by_cases ht : token = .lparen
    · subst ht
      rfl
    · rw [drain.eq_2 _ _ _ ht]
      exact ih ((List.mem_cons.mp h).resolve_left (Ne.symm ht))

/-- A token is taken in unless it cannot be. -/
theorem Sound.tracks_step (h : Sound depth state) (token : Token) :
    Run.Tracks Sound (depthAfter depth token) (step state token) := by
  obtain ⟨hwaiting, hdepth⟩ := h
  cases token with
  | num text => exact ⟨_, step_num_eq_ok.mpr rfl, hwaiting, hdepth⟩
  | op symbol =>
    rw [depthAfter]
    cases hnext : Operator.lookup symbol with
    | error e =>
      show (step state (.op symbol)).result = .error e
      rw [step, Run.result_bind, Run.result_ofExcept, hnext]
      rfl
    | ok next =>
      obtain ⟨popped, rest, hs, hb, hq⟩ := exists_split next.precedence hwaiting
      refine ⟨_, step_op_eq_ok.mpr ⟨next, popped, rest, hnext, hs, rfl, hb, hq⟩, ?_, ?_⟩
      · intro token ht
        rcases List.mem_cons.mp ht with rfl | ht
        · exact .inr ⟨symbol, next, rfl, hnext, Nat.zero_le _⟩
        · exact hwaiting token (by rw [hs]; exact List.mem_append_right _ ht)
      · have hnone : popped.count .lparen = 0 :=
          List.count_eq_zero.mpr fun hm => (hb _ hm).ne_lparen rfl
        rw [hs, List.count_append, hnone, Nat.zero_add] at hdepth
        rw [List.count_cons_of_ne (by simp)]
        exact hdepth
  | lparen =>
    refine ⟨_, step_lparen_eq_ok.mpr rfl, ?_, ?_⟩
    · exact List.forall_mem_cons.mpr ⟨.inl rfl, hwaiting⟩
    · rw [List.count_cons_self, hdepth]
  | rparen =>
    rw [depthAfter]
    by_cases hd : depth = 0
    · rw [if_pos hd]
      rw [hd, List.count_eq_zero] at hdepth
      exact result_close_of_notMem hdepth
    · rw [if_neg hd]
      have hm : .lparen ∈ state.stack := by
        rw [← List.count_pos_iff]
        omega
      obtain ⟨popped, rest, hs, hp⟩ := List.eq_append_cons_of_mem hm
      refine ⟨_, step_rparen_eq_ok.mpr ⟨popped, rest, hs, hp, rfl⟩, ?_, ?_⟩
      · intro token ht
        exact hwaiting token (by rw [hs]; simp [ht])
      · rw [hs, List.count_append, List.count_eq_zero.mpr hp, List.count_cons_self] at hdepth
        show rest.count .lparen = depth - 1
        omega

theorem tracks_foldlM (tokens : List Token) :
    Run.Tracks Sound (tokens.foldlM depthAfter 0) (tokens.foldlM step initial) :=
  Run.tracks_foldlM (I := fun _ depth state => Sound depth state) sound_initial
    fun _ token _ _ _ _ h => h.tracks_step token

end Conversion

variable {tokens : List Token}

/-- A conversion fails at the first token that cannot be converted, and otherwise only if a group is
open in the end. -/
theorem result_ofInfix (tokens : List Token) :
    match tokens.foldlM depthAfter 0 with
    | .ok depth => if depth = 0 then ∃ out, (ofInfix tokens).result = .ok out
        else (ofInfix tokens).result = .error .mismatchedParentheses
    | .error e => (ofInfix tokens).result = .error e := by
  have h := Conversion.tracks_foldlM tokens
  rw [ofInfix, Run.result_bind]
  cases hdepthAfter : tokens.foldlM depthAfter 0 with
  | error e =>
    rw [hdepthAfter] at h
    rw [show (tokens.foldlM Conversion.step Conversion.initial).result = .error e from h]
    rfl
  | ok depth =>
    rw [hdepthAfter] at h
    obtain ⟨state, hs, hsound⟩ := h
    rw [hs, Run.ok_bind]
    have hcount := hsound.depth_eq
    show if depth = 0 then _ else _
    split_ifs with hd
    · rw [hd, List.count_eq_zero] at hcount
      exact ⟨_, Conversion.finish_eq_ok.mpr ⟨hcount, rfl⟩⟩
    · have hm : .lparen ∈ state.stack := by
        rw [← List.count_pos_iff]
        omega
      rw [Conversion.finish, Run.result_bind, Conversion.result_drain_of_mem hm]
      rfl

/-- Where all operators are in the table, only the parentheses matter. -/
theorem foldlM_depthAfter (h : Token.Known tokens) (depth : Nat) :
    tokens.foldlM depthAfter depth = match tokens.foldlM openAfter depth with
      | some last => .ok last
      | none => .error .mismatchedParentheses := by
  induction tokens generalizing depth with
  | nil => rfl
  | cons token tokens ih =>
    have ih' := ih (h.mono (List.subset_cons_self _ _))
    cases token with
    | num text => exact ih' depth
    | op symbol =>
      obtain ⟨kind, rfl⟩ := h symbol List.mem_cons_self
      obtain ⟨level, hlookup⟩ := Operator.exists_lookup_symbol kind
      rw [List.foldlM_cons, depthAfter, hlookup]
      exact ih' depth
    | lparen => exact ih' (depth + 1)
    | rparen =>
      rw [List.foldlM_cons, List.foldlM_cons, depthAfter, openAfter]
      split_ifs
      · rfl
      · exact ih' (depth - 1)

/-- Only operators of the table are converted. -/
theorem known_of_result_ofInfix {out : List Token} (h : (ofInfix tokens).result = .ok out) :
    Token.Known tokens := by
  intro symbol hm
  obtain ⟨before, after, rfl⟩ := List.append_of_mem hm
  rw [ofInfix, Run.result_bind_eq_ok] at h
  obtain ⟨last, hrun, -⟩ := h
  rw [List.foldlM_append, Run.result_bind_eq_ok] at hrun
  obtain ⟨state, -, hrun⟩ := hrun
  rw [List.foldlM_cons, Run.result_bind_eq_ok] at hrun
  obtain ⟨next, hstep, -⟩ := hrun
  obtain ⟨operator, -, -, hop, -⟩ := Conversion.step_op_eq_ok.mp hstep
  exact ⟨operator.kind, Operator.eq_symbol_of_lookup hop⟩

theorem exists_result_ofInfix (h : Token.Known tokens) (hb : Token.Balanced tokens) :
    ∃ out, (ofInfix tokens).result = .ok out := by
  have hresult := result_ofInfix tokens
  rw [foldlM_depthAfter h, show tokens.foldlM openAfter 0 = some 0 from hb] at hresult
  exact hresult

theorem result_ofInfix_of_not_balanced (h : Token.Known tokens) (hb : ¬ Token.Balanced tokens) :
    (ofInfix tokens).result = .error .mismatchedParentheses := by
  have hresult := result_ofInfix tokens
  rw [foldlM_depthAfter h] at hresult
  cases hopen : tokens.foldlM openAfter 0 with
  | none =>
    rw [hopen] at hresult
    exact hresult
  | some depth =>
    have hd : depth ≠ 0 := by
      rintro rfl
      exact hb hopen
    simpa only [hopen, if_neg hd] using hresult

end Rpn

end Reckon
