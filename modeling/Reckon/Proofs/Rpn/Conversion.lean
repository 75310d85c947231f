import Reckon.Proofs.Outcome
import Reckon.Rpn.Conversion

/-!
# Steps of a conversion

What each step of a conversion can do to the output and to the stack, guards included. The loops
take a run of operators off the stack: an operator those that bind at least as tightly, a right
parenthesis those that wait since the latest left one.
-/

namespace Reckon.Rpn

open Run (result_bind ok_bind error_bind)

namespace Conversion

/-- The token is an operator of the table that binds at least so tightly. -/
def BindsAtLeast (level : Nat) (token : Token) : Prop :=
  ∃ symbol operator, token = .op symbol ∧ Operator.lookup symbol = .ok operator ∧
    level ≤ operator.precedence

/-- No operator on top of the stack binds so tightly: an operator there is in the table and binds
less tightly. -/
def Quiet (level : Nat) (stack : List Token) : Prop :=
  ∀ symbol rest, stack = .op symbol :: rest →
    ∃ operator, Operator.lookup symbol = .ok operator ∧ operator.precedence < level

theorem BindsAtLeast.mono {level level' : Nat} (hl : level' ≤ level) {token : Token}
    (h : BindsAtLeast level token) : BindsAtLeast level' token := by
  obtain ⟨symbol, operator, ht, ho, hp⟩ := h
  exact ⟨symbol, operator, ht, ho, Nat.le_trans hl hp⟩

theorem Quiet.mono {level level' : Nat} (hl : level ≤ level') {stack : List Token}
    (h : Quiet level stack) : Quiet level' stack := by
  intro symbol rest hs
  obtain ⟨operator, ho, hp⟩ := h symbol rest hs
  exact ⟨operator, ho, Nat.lt_of_lt_of_le hp hl⟩

theorem quiet_nil (level : Nat) : Quiet level [] := by
  intro symbol rest hs
  simp at hs

theorem quiet_lparen (level : Nat) (stack : List Token) : Quiet level (.lparen :: stack) := by
  intro symbol rest hs
  simp at hs

theorem quiet_op {level : Nat} {symbol : String} {operator : Operator}
    (hop : Operator.lookup symbol = .ok operator) (hlt : operator.precedence < level)
    (stack : List Token) : Quiet level (.op symbol :: stack) := by
  intro symbol' rest hs
  obtain ⟨hsymbol, -⟩ := List.cons.inj hs
  obtain rfl := Token.op.inj hsymbol
  exact ⟨operator, hop, hlt⟩

theorem Quiet.append {level : Nat} {rest stack : List Token} (h : Quiet level rest)
    (hs : Quiet level stack) : Quiet level (rest ++ stack) := by
  cases rest with
  | nil => exact hs
  | cons token rest =>
    intro symbol rest' hrest
    obtain ⟨rfl, -⟩ := List.cons.inj hrest
    exact h symbol rest rfl

theorem BindsAtLeast.ne_lparen {level : Nat} {token : Token} (h : BindsAtLeast level token) :
    token ≠ .lparen := by
  obtain ⟨symbol, operator, rfl, -, -⟩ := h
  simp

theorem BindsAtLeast.not_quiet {level : Nat} {token : Token} (h : BindsAtLeast level token)
    {rest : List Token} : ¬ Quiet level (token :: rest) := by
  intro hq
  obtain ⟨symbol, operator, rfl, ho, hp⟩ := h
  obtain ⟨operator', ho', hp'⟩ := hq symbol rest rfl
  rw [ho] at ho'
  cases ho'
  omega

/-! ## The loops -/

variable {symbol : String} {next : Operator} {output stack : List Token} {state : Conversion}

theorem result_release_op (waiting : String) :
    (release symbol next output (.op waiting :: stack)).result =
      Operator.lookup waiting >>= fun operator =>
        if operator.goesBefore next then (release symbol next (.op waiting :: output) stack).result
        else .ok ⟨output, .op waiting :: stack⟩ := by
  rw [release, result_bind, Run.result_ofExcept]
  congr 1
  funext operator
  split_ifs
  · rw [result_bind, Run.result_note, ok_bind]
  · rfl

/-- Where no operator binds tightly enough, none is put out. -/
theorem release_stops_iff {level : Nat} (hquiet : Quiet level stack) :
    (Except.ok ⟨output, stack⟩ : Except EvalError Conversion) = .ok state ↔
      ∃ popped, stack = popped ++ state.stack ∧ state.output = popped.reverse ++ output ∧
        (∀ token ∈ popped, BindsAtLeast level token) ∧ Quiet level state.stack := by
  constructor
  · intro h
    cases h
    exact ⟨[], rfl, rfl, by simp, hquiet⟩
  · obtain ⟨output', stack'⟩ := state
    rintro ⟨popped, rfl, rfl, hb, -⟩
    cases popped with
    | nil => rfl
    | cons token popped =>
      exact absurd hquiet (hb token List.mem_cons_self).not_quiet

/-- An operator on top of the stack is in the table, whether it is put out or stays. -/
theorem exists_lookup_of_top {level : Nat} {waiting : String} {popped rest : List Token}
    (hs : .op waiting :: stack = popped ++ rest)
    (hb : ∀ token ∈ popped, BindsAtLeast level token) (hq : Quiet level rest) :
    ∃ operator, Operator.lookup waiting = .ok operator := by
  cases popped with
  | nil =>
    obtain ⟨operator, ho, -⟩ := hq waiting stack hs.symm
    exact ⟨operator, ho⟩
  | cons token popped =>
    obtain ⟨rfl, -⟩ := List.cons.inj hs
    obtain ⟨symbol, operator, ht, ho, -⟩ := hb _ List.mem_cons_self
    cases ht
    exact ⟨operator, ho⟩

/-- An operator puts out the run of operators on top of the stack that bind at least as tightly. -/
theorem result_release_eq_ok :
    (release symbol next output stack).result = .ok state ↔
      ∃ popped, stack = popped ++ state.stack ∧ state.output = popped.reverse ++ output ∧
        (∀ token ∈ popped, BindsAtLeast next.precedence token) ∧
        Quiet next.precedence state.stack := by
  induction stack generalizing output with
  | nil => exact release_stops_iff (quiet_nil _)
  | cons token stack ih =>
    cases token with
    | op waiting =>
      rw [result_release_op]
      cases hw : Operator.lookup waiting with
      | error e =>
        constructor
        · intro h
          cases h
        · rintro ⟨popped, hs, -, hb, hq⟩
          obtain ⟨operator, ho⟩ := exists_lookup_of_top hs hb hq
          rw [hw] at ho
          cases ho
      | ok operator =>
        rw [ok_bind]
        split_ifs with hg
        · have hwaits : BindsAtLeast next.precedence (.op waiting) :=
            ⟨waiting, operator, rfl, hw, of_decide_eq_true hg⟩
          rw [ih]
          constructor
          · rintro ⟨popped, hs, ho, hb, hq⟩
            exact ⟨.op waiting :: popped, by rw [hs]; rfl, by rw [ho]; simp,
              List.forall_mem_cons.mpr ⟨hwaits, hb⟩, hq⟩
          · rintro ⟨popped, hs, ho, hb, hq⟩
            cases popped with
            | nil =>
              rw [← show _ = state.stack from hs] at hq
              exact absurd hq hwaits.not_quiet
            | cons token popped =>
              obtain ⟨rfl, hrest⟩ := List.cons.inj hs
              exact ⟨popped, hrest, by rw [ho]; simp, (List.forall_mem_cons.mp hb).2, hq⟩
        · rw [Operator.goesBefore, decide_eq_true_eq, Nat.not_le] at hg
          exact release_stops_iff (quiet_op hw hg _)
    | num text => exact release_stops_iff fun symbol rest hs => by simp at hs
    | lparen => exact release_stops_iff (quiet_lparen _ _)
    | rparen => exact release_stops_iff fun symbol rest hs => by simp at hs

/-- A right parenthesis puts out what waits since the latest left one. -/
theorem result_close_eq_ok :
    (close output stack).result = .ok state ↔
      ∃ popped, stack = popped ++ .lparen :: state.stack ∧
        state.output = popped.reverse ++ output ∧ .lparen ∉ popped := by
  induction stack generalizing output with
  | nil => simp [close, result_bind]
  | cons token stack ih =>
    by_cases ht : token = .lparen
    · subst ht
      obtain ⟨output', stack'⟩ := state
      rw [close]
      constructor
      · intro h
        cases h
        exact ⟨[], rfl, rfl, List.not_mem_nil⟩
      · rintro ⟨popped, hs, rfl, hp⟩
        cases popped with
        | nil =>
          cases hs
          rfl
        | cons token popped =>
          obtain ⟨rfl, -⟩ := List.cons.inj hs
          exact absurd List.mem_cons_self hp
    · rw [close.eq_2 _ _ _ ht, ih]
      constructor
      · rintro ⟨popped, rfl, ho, hp⟩
        exact ⟨token :: popped, rfl, by rw [ho]; simp, by simp [hp, Ne.symm ht]⟩
      · rintro ⟨popped, hs, ho, hp⟩
        cases popped with
        | nil => exact absurd (List.cons.inj hs).1 ht
        | cons token' popped =>
          obtain ⟨rfl, hrest⟩ := List.cons.inj hs
          exact ⟨popped, hrest, by rw [ho]; simp, fun h => hp (List.mem_cons_of_mem _ h)⟩

/-- At the end all that waits is put out, unless a left parenthesis is among it. -/
theorem result_drain_eq_ok {out : List Token} :
    (drain output stack).result = .ok out ↔ .lparen ∉ stack ∧ out = stack.reverse ++ output := by
  induction stack generalizing output with
  | nil =>
    rw [drain, Run.result_pure, Except.ok.injEq, eq_comm]
    simp
  | cons token stack ih =>
    by_cases ht : token = .lparen
    · subst ht
      simp [drain, result_bind]
    · rw [drain.eq_2 _ _ _ ht, ih]
      simp [Ne.symm ht]

/-! ## The steps -/

theorem step_num_eq_ok {text : String} {state' : Conversion} :
    (step state (.num text)).result = .ok state' ↔
      state' = ⟨.num text :: state.output, state.stack⟩ := by
  rw [step, Run.result_pure, Except.ok.injEq, eq_comm]

theorem step_op_eq_ok {state' : Conversion} :
    (step state (.op symbol)).result = .ok state' ↔
      ∃ next popped rest, Operator.lookup symbol = .ok next ∧ state.stack = popped ++ rest ∧
        state' = ⟨popped.reverse ++ state.output, .op symbol :: rest⟩ ∧
        (∀ token ∈ popped, BindsAtLeast next.precedence token) ∧ Quiet next.precedence rest := by
  rw [step, Run.result_bind_eq_ok]
  simp only [Run.result_bind_eq_ok, Run.result_ofExcept, Run.result_note, Run.result_pure,
    result_release_eq_ok]
  constructor
  · rintro ⟨next, hn, ⟨output, rest⟩, ⟨popped, hs, ho, hb, hq⟩, -, -, h⟩
    cases h
    exact ⟨next, popped, rest, hn, hs, by rw [← ho], hb, hq⟩
  · rintro ⟨next, popped, rest, hn, hs, rfl, hb, hq⟩
    exact ⟨next, hn, ⟨popped.reverse ++ state.output, rest⟩, ⟨popped, hs, rfl, hb, hq⟩,
      (), trivial, rfl⟩

theorem step_lparen_eq_ok {state' : Conversion} :
    (step state .lparen).result = .ok state' ↔
      state' = ⟨state.output, .lparen :: state.stack⟩ := by
  rw [step, Run.result_pure, Except.ok.injEq, eq_comm]

theorem step_rparen_eq_ok {state' : Conversion} :
    (step state .rparen).result = .ok state' ↔
      ∃ popped rest, state.stack = popped ++ .lparen :: rest ∧ .lparen ∉ popped ∧
        state' = ⟨popped.reverse ++ state.output, rest⟩ := by
  rw [step, result_close_eq_ok]
  constructor
  · rintro ⟨popped, hs, ho, hp⟩
    exact ⟨popped, state'.stack, hs, hp, by rw [← ho]⟩
  · rintro ⟨popped, rest, hs, hp, rfl⟩
    exact ⟨popped, hs, rfl, hp⟩

theorem finish_eq_ok {out : List Token} :
    (finish state).result = .ok out ↔
      .lparen ∉ state.stack ∧ out = state.output.reverse ++ state.stack := by
  rw [finish, Run.result_bind_eq_ok]
  simp only [Run.result_bind, Run.result_note, Run.ok_bind, Run.result_pure, result_drain_eq_ok,
    Except.ok.injEq]
  constructor
  · rintro ⟨output, ⟨hl, rfl⟩, rfl⟩
    exact ⟨hl, by simp⟩
  · rintro ⟨hl, rfl⟩
    exact ⟨_, ⟨hl, rfl⟩, by simp⟩

/-! ## Calls -/

theorem silent_release (symbol : String) (next : Operator) (output stack : List Token) :
    (release symbol next output stack).Silent := by
  fun_induction release symbol next output stack with
  | case1 output waiting stack ih =>
    refine (Run.silent_ofExcept _).bind fun operator => ?_
    split_ifs
    · exact (Run.silent_note _).bind fun _ => ih
    · exact Run.silent_pure _
  | case2 output stack => exact Run.silent_pure _

theorem silent_close (output stack : List Token) : (close output stack).Silent := by
  fun_induction close output stack with
  | case1 => exact Run.silent_pure _
  | case2 output token stack h ih => exact ih
  | case3 => exact (Run.silent_note _).bind fun _ => Run.silent_fail _

theorem silent_drain (output stack : List Token) : (drain output stack).Silent := by
  fun_induction drain output stack with
  | case1 => exact (Run.silent_note _).bind fun _ => Run.silent_fail _
  | case2 output token stack h ih => exact ih
  | case3 => exact Run.silent_pure _

theorem silent_step (state : Conversion) (token : Token) : (step state token).Silent := by
  cases token with
  | num text => exact Run.silent_pure _
  | op symbol =>
    refine (Run.silent_ofExcept _).bind fun next => ?_
    refine (silent_release _ _ _ _).bind fun released => ?_
    exact (Run.silent_note _).bind fun _ => Run.silent_pure _
  | lparen => exact Run.silent_pure _
  | rparen => exact silent_close _ _

end Conversion

/-- Tokens are converted without a call of a provider. -/
theorem silent_ofInfix (tokens : List Token) : (ofInfix tokens).Silent := by
  refine (Run.Silent.foldlM Conversion.silent_step _ _).bind fun state => ?_
  refine (Conversion.silent_drain _ _).bind fun output => ?_
  exact (Run.silent_note _).bind fun _ => Run.silent_pure _

end Reckon.Rpn
