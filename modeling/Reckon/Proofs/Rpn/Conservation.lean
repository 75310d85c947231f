import Reckon.Proofs.Rpn.Conversion

/-!
# What a conversion conserves

A conversion loses nothing and duplicates nothing: apart from the parentheses, it puts out as many
tokens of each kind as it takes in, `countP_of_result_ofInfix`. It succeeds only if the parentheses
pair up, for the left parentheses on its stack are those that are open.
-/

namespace Reckon

namespace Token

/-- The number of open groups after a token, unless the token closes a group that is not open. -/
def openAfter (depth : Nat) : Token → Option Nat
  | lparen => some (depth + 1)
  | rparen => if depth = 0 then none else some (depth - 1)
  | _ => some depth

/-- The parentheses pair up. -/
def Balanced (tokens : List Token) : Prop :=
  tokens.foldlM openAfter 0 = some 0

instance : DecidablePred Balanced :=
  fun tokens => inferInstanceAs (Decidable (tokens.foldlM openAfter 0 = some 0))

/-- Every operator among the tokens is one of the four operations. -/
def Known (tokens : List Token) : Prop :=
  ∀ symbol, .op symbol ∈ tokens → ∃ kind : BinOp, symbol = kind.symbol

theorem Known.mono {tokens part : List Token} (h : Known tokens) (hpart : part ⊆ tokens) :
    Known part :=
  fun symbol hm => h symbol (hpart hm)

end Token

namespace Rpn

open Token (openAfter)

namespace Conversion

/-- What the state after the tokens `done` accounts for. -/
structure Accounts (done : List Token) (state : Conversion) : Prop where
  /-- Each token other than a parenthesis has been put out or waits. -/
  countP_eq : ∀ p : Token → Bool, p .lparen = false → p .rparen = false →
    state.output.countP p + state.stack.countP p = done.countP p
  /-- The left parentheses that wait are those that are open. -/
  depth_eq : done.foldlM openAfter 0 = some (state.stack.count .lparen)

theorem accounts_initial : Accounts [] initial :=
  ⟨fun _ _ _ => rfl, rfl⟩

theorem Accounts.step {done : List Token} {state state' : Conversion} {token : Token}
    (h : Accounts done state) (hs : (step state token).result = .ok state') :
    Accounts (done ++ [token]) state' := by
  obtain ⟨hcount, hdepth⟩ := h
  cases token with
  | num text =>
    rw [step_num_eq_ok] at hs
    subst hs
    refine ⟨fun p hl hr => ?_, ?_⟩
    · have := hcount p hl hr
      simp only [List.countP_append, List.countP_nil, List.countP_cons]
      omega
    · rw [List.foldlM_append, hdepth]
      rfl
  | op symbol =>
    rw [step_op_eq_ok] at hs
    obtain ⟨next, popped, rest, -, hst, rfl, hb, -⟩ := hs
    rw [hst] at hcount hdepth
    refine ⟨fun p hl hr => ?_, ?_⟩
    · have := hcount p hl hr
      simp only [List.countP_append, List.countP_nil, List.countP_cons,
        List.countP_reverse] at this ⊢
      omega
    · have hnone : popped.count .lparen = 0 :=
        List.count_eq_zero.mpr fun hm => (hb _ hm).ne_lparen rfl
      rw [List.foldlM_append, hdepth, List.count_append, hnone, Nat.zero_add,
        List.count_cons_of_ne (by simp)]
      rfl
  | lparen =>
    rw [step_lparen_eq_ok] at hs
    subst hs
    refine ⟨fun p hl hr => ?_, ?_⟩
    · have := hcount p hl hr
      simp only [List.countP_append, List.countP_nil, List.countP_cons, hl,
        Bool.false_eq_true, if_false]
      omega
    · rw [List.foldlM_append, hdepth, List.count_cons_self]
      rfl
  | rparen =>
    rw [step_rparen_eq_ok] at hs
    obtain ⟨popped, rest, hst, hp, rfl⟩ := hs
    rw [hst] at hcount hdepth
    refine ⟨fun p hl hr => ?_, ?_⟩
    · have := hcount p hl hr
      simp only [List.countP_append, List.countP_nil, List.countP_cons, List.countP_reverse,
        hl, hr, Bool.false_eq_true, if_false] at this ⊢
      omega
    · rw [List.foldlM_append, hdepth, List.count_append, List.count_eq_zero.mpr hp, Nat.zero_add,
        List.count_cons_self]
      rfl

theorem accounts_of_run {tokens : List Token} {state : Conversion}
    (h : (tokens.foldlM Conversion.step initial).result = .ok state) : Accounts tokens state :=
  Run.foldlM_induction accounts_initial (fun _ _ _ _ hi hs => hi.step hs) h

end Conversion

variable {tokens out : List Token}

/-- A successful conversion accounts for all tokens in its last state. -/
theorem exists_accounts_of_result_ofInfix (h : (ofInfix tokens).result = .ok out) :
    ∃ state, Conversion.Accounts tokens state ∧ .lparen ∉ state.stack ∧
      out = state.output.reverse ++ state.stack := by
  rw [ofInfix, Run.result_bind_eq_ok] at h
  obtain ⟨state, hstate, hfinish⟩ := h
  exact ⟨state, Conversion.accounts_of_run hstate, Conversion.finish_eq_ok.mp hfinish⟩

/-- Apart from the parentheses, tokens are neither lost nor duplicated. -/
theorem countP_of_result_ofInfix (h : (ofInfix tokens).result = .ok out) {p : Token → Bool}
    (hl : p .lparen = false) (hr : p .rparen = false) : out.countP p = tokens.countP p := by
  obtain ⟨state, haccounts, -, rfl⟩ := exists_accounts_of_result_ofInfix h
  rw [List.countP_append, List.countP_reverse, haccounts.countP_eq p hl hr]

theorem mem_iff_of_result_ofInfix (h : (ofInfix tokens).result = .ok out) {token : Token}
    (hl : token ≠ .lparen) (hr : token ≠ .rparen) : token ∈ out ↔ token ∈ tokens := by
  have hcount : out.count token = tokens.count token :=
    countP_of_result_ofInfix h (by simpa using hl.symm) (by simpa using hr.symm)
  rw [← List.count_pos_iff, hcount, List.count_pos_iff]

/-- Only tokens whose parentheses pair up are converted. -/
theorem balanced_of_result_ofInfix (h : (ofInfix tokens).result = .ok out) :
    Token.Balanced tokens := by
  obtain ⟨state, haccounts, hopen, -⟩ := exists_accounts_of_result_ofInfix h
  rw [Token.Balanced, haccounts.depth_eq, List.count_eq_zero.mpr hopen]

end Rpn

end Reckon
