import Reckon.Proofs.Rpn.Failure

/-!
# What waits on the stack

The operators that wait in a group bind more and more tightly from the bottom of the stack to its
top, for an operator makes all leave that bind at least as tightly. There are two levels of
precedence. So at most two operators wait in a group, and the stack is never longer than three
tokens for each open group and two more. Main statement: `waiting_operators_ascend`.

A stack of this form is graded. Nothing else can be said of a stack in general: the graded stacks
are exactly those that a conversion can have, `graded_iff_exists_run`.
-/

namespace Reckon.Rpn

open Token (openAfter depthAfter)

namespace Conversion

/-- A stack of left parentheses and operators of the table, the latest first, on which each operator
binds more tightly than one directly below it. -/
inductive Graded : List Token → Prop where
  /-- Nothing waits. -/
  | nil : Graded []
  /-- A left parenthesis stands on any graded stack. -/
  | lparen {stack : List Token} (below : Graded stack) : Graded (.lparen :: stack)
  /-- An operator stands on a graded stack where no operator on top binds as tightly. -/
  | op {symbol : String} {operator : Operator} {stack : List Token}
      (found : Operator.lookup symbol = .ok operator) (quiet : Quiet operator.precedence stack)
      (below : Graded stack) : Graded (.op symbol :: stack)

/-- Two tokens are operators of the table, and the first binds more tightly than the second. -/
def BindsTighter (upper lower : Token) : Prop :=
  ∃ symbol operator symbol' operator', upper = .op symbol ∧ lower = .op symbol' ∧
    (symbol, operator) ∈ Operator.table ∧ (symbol', operator') ∈ Operator.table ∧
    operator'.precedence < operator.precedence

variable {stack above below segment tokens : List Token} {state next : Conversion} {token : Token}
  {symbol : String} {operator : Operator} {level depth last : Nat}

/-! ## Parts of a graded stack -/

theorem Graded.of_append_right (h : Graded (above ++ stack)) : Graded stack := by
  induction above with
  | nil => exact h
  | cons token above ih =>
    cases h with
    | lparen below => exact ih below
    | op found quiet below => exact ih below

theorem Quiet.of_append_left (h : Quiet level (stack ++ below)) : Quiet level stack := by
  rintro symbol rest rfl
  exact h symbol (rest ++ below) rfl

theorem Graded.of_append_left (h : Graded (stack ++ below)) : Graded stack := by
  induction stack with
  | nil => exact .nil
  | cons token stack ih =>
    cases h with
    | lparen below => exact .lparen (ih below)
    | op found quiet below => exact .op found quiet.of_append_left (ih below)

theorem Graded.of_infix (h : Graded stack) (hs : segment <:+: stack) : Graded segment := by
  obtain ⟨above, below, rfl⟩ := hs
  exact h.of_append_left.of_append_right

/-! ## Steps -/

/-- A step keeps the stack graded. -/
theorem Graded.step (h : Graded state.stack) (hstep : (step state token).result = .ok next) :
    Graded next.stack := by
  cases token with
  | num text =>
    obtain rfl := step_num_eq_ok.mp hstep
    exact h
  | op symbol =>
    -- what binds as tightly has left, so that the operator stands on a part that is quiet for it
    obtain ⟨operator, popped, rest, found, hs, rfl, -, quiet⟩ := step_op_eq_ok.mp hstep
    rw [hs] at h
    exact .op found quiet h.of_append_right
  | lparen =>
    obtain rfl := step_lparen_eq_ok.mp hstep
    exact .lparen h
  | rparen =>
    obtain ⟨popped, rest, hs, -, rfl⟩ := step_rparen_eq_ok.mp hstep
    rw [hs, List.append_cons] at h
    exact h.of_append_right

theorem graded_of_run (h : (tokens.foldlM Conversion.step initial).result = .ok state) :
    Graded state.stack :=
  Run.foldlM_induction (I := fun _ state => Graded state.stack) Graded.nil
    (fun _ _ _ _ hgraded hstep => hgraded.step hstep) h

/-- The tokens of a graded stack, taken in from the bottom to the top, all come to wait. -/
theorem Graded.result_foldlM (h : Graded stack) :
    (stack.reverse.foldlM Conversion.step initial).result = .ok ⟨[], stack⟩ := by
  induction h with
  | nil => rfl
  | lparen below ih =>
    rw [List.reverse_cons, Run.result_foldlM_append ih]
    rfl
  | @op symbol operator stack found quiet below ih =>
    have hstep : (Conversion.step ⟨[], stack⟩ (.op symbol)).result = .ok ⟨[], .op symbol :: stack⟩ :=
      step_op_eq_ok.mpr ⟨operator, [], stack, found, rfl, rfl, by simp, quiet⟩
    rw [List.reverse_cons, Run.result_foldlM_append ih, List.foldlM_cons, Run.result_bind, hstep]
    rfl

/-- The graded stacks are those that a conversion can have. -/
theorem graded_iff_exists_run : Graded stack ↔
    ∃ (tokens : List Token) (output : List Token),
      (tokens.foldlM Conversion.step initial).result = .ok ⟨output, stack⟩ := by
  constructor
  · exact fun h => ⟨stack.reverse, [], h.result_foldlM⟩
  · rintro ⟨tokens, output, h⟩
    exact graded_of_run h

/-! ## Levels -/

/-- There are two levels of precedence. -/
theorem precedence_of_lookup (h : Operator.lookup symbol = .ok operator) :
    operator.precedence = 1 ∨ operator.precedence = 2 := by
  rw [Operator.lookup_eq_ok_iff] at h
  simp only [Operator.table, List.mem_cons, Prod.mk.injEq, List.not_mem_nil, or_false] at h
  rcases h with ⟨-, rfl⟩ | ⟨-, rfl⟩ | ⟨-, rfl⟩ | ⟨-, rfl⟩
  · exact .inr rfl
  · exact .inl rfl
  · exact .inl rfl
  · exact .inr rfl

/-- No operator binds more tightly than the second level. -/
theorem Graded.quiet (h : Graded stack) : Quiet 3 stack := by
  cases h with
  | nil => exact quiet_nil 3
  | lparen below => exact quiet_lparen 3 _
  | op found quiet below =>
    have hlevel := precedence_of_lookup found
    exact quiet_op found (by omega) _

theorem Quiet.precedence_lt (h : Quiet level (.op symbol :: stack))
    (hop : Operator.lookup symbol = .ok operator) : operator.precedence < level := by
  obtain ⟨operator', hop', hlt⟩ := h symbol stack rfl
  obtain rfl : operator = operator' := Except.ok.inj (hop.symm.trans hop')
  exact hlt

/-- Where no operator on top binds as tightly as a level, there is room up to that level. -/
theorem Graded.length_lt (h : Graded stack) (hquiet : Quiet level stack) (hlevel : 0 < level) :
    stack.length < 3 * stack.count .lparen + level := by
  induction h generalizing level with
  | nil =>
    rw [List.length_nil, List.count_nil]
    omega
  | lparen below ih =>
    have hbelow := ih below.quiet (by decide)
    rw [List.length_cons, List.count_cons_self]
    omega
  | op found quiet below ih =>
    have hpos := precedence_of_lookup found
    have hlt := hquiet.precedence_lt found
    have hbelow := ih quiet (by omega)
    rw [List.length_cons, List.count_cons_of_ne (by simp)]
    omega

theorem Graded.length_le (h : Graded stack) :
    stack.length ≤ 3 * stack.count .lparen + 2 :=
  Nat.le_of_lt_succ (h.length_lt h.quiet (by decide))

/-- Where no operator on top binds as tightly as a level, none of its group does. -/
theorem Graded.precedence_lt (h : Graded stack) (hgroup : .lparen ∉ stack)
    (hquiet : Quiet level stack) :
    ∀ token ∈ stack, ∃ symbol operator, token = .op symbol ∧
      Operator.lookup symbol = .ok operator ∧ operator.precedence < level := by
  induction h generalizing level with
  | nil => simp
  | lparen below => exact absurd List.mem_cons_self hgroup
  | @op symbol operator stack found quiet below ih =>
    have hlt := hquiet.precedence_lt found
    refine List.forall_mem_cons.mpr ⟨⟨symbol, operator, rfl, found, hlt⟩, ?_⟩
    exact ih (fun hm => hgroup (List.mem_cons_of_mem _ hm)) (quiet.mono (Nat.le_of_lt hlt))

/-- In a group each operator binds more tightly than all below it. -/
theorem Graded.pairwise (h : Graded stack) (hgroup : .lparen ∉ stack) :
    stack.Pairwise BindsTighter := by
  induction h with
  | nil => exact .nil
  | lparen below => exact absurd List.mem_cons_self hgroup
  | @op symbol operator stack found quiet below ih =>
    have hrest : .lparen ∉ stack := fun hm => hgroup (List.mem_cons_of_mem _ hm)
    refine List.pairwise_cons.mpr ⟨fun lower hlower => ?_, ih hrest⟩
    obtain ⟨symbol', operator', rfl, found', hlt⟩ := below.precedence_lt hrest quiet lower hlower
    exact ⟨symbol, operator, symbol', operator', rfl, rfl, Operator.lookup_eq_ok_iff.mp found,
      Operator.lookup_eq_ok_iff.mp found', hlt⟩

theorem Graded.two_more (h : Graded stack) (hquiet : Quiet 1 stack) :
    Graded (.op "*" :: .op "+" :: stack) := by
  have hplus : Operator.lookup "+" = .ok ⟨1, .add⟩ := rfl
  have htimes : Operator.lookup "*" = .ok ⟨2, .mul⟩ := rfl
  exact .op htimes (quiet_op hplus (by decide) stack) (.op hplus hquiet h)

/-- At each depth there is a stack that has no room for another operator. -/
theorem exists_run_of_greatest_length (depth : Nat) :
    ∃ (tokens : List Token) (state : Conversion),
      (tokens.foldlM Conversion.step initial).result = .ok state ∧
      state.stack.count .lparen = depth ∧ state.stack.length = 3 * depth + 2 := by
  have hstack : ∃ stack, Graded stack ∧ stack.count .lparen = depth ∧
      stack.length = 3 * depth + 2 := by
    induction depth with
    | zero => exact ⟨_, Graded.nil.two_more (quiet_nil 1), rfl, rfl⟩
    | succ depth ih =>
      obtain ⟨stack, hgraded, hcount, hlength⟩ := ih
      refine ⟨_, (Graded.lparen hgraded).two_more (quiet_lparen 1 stack), ?_, ?_⟩
      · simp [hcount]
      · simp [hlength]
        omega
  obtain ⟨stack, hgraded, hcount, hlength⟩ := hstack
  exact ⟨stack.reverse, ⟨[], stack⟩, hgraded.result_foldlM, hcount, hlength⟩

/-! ## Depth -/

/-- The groups that are open are those that have been opened and not closed. -/
theorem count_of_foldlM_openAfter (h : tokens.foldlM openAfter depth = some last) :
    last + tokens.count .rparen = depth + tokens.count .lparen := by
  induction tokens generalizing depth with
  | nil =>
    cases h
    rfl
  | cons token tokens ih =>
    rw [List.foldlM_cons] at h
    cases token with
    | num text | op symbol =>
      rw [List.count_cons_of_ne (by simp), List.count_cons_of_ne (by simp)]
      exact ih h
    | lparen =>
      have hrest : last + tokens.count .rparen = depth + 1 + tokens.count .lparen := ih h
      rw [List.count_cons_of_ne (by simp), List.count_cons_self]
      omega
    | rparen =>
      have hd : depth ≠ 0 := by
        rintro rfl
        cases h
      rw [openAfter, if_neg hd] at h
      have hrest : last + tokens.count .rparen = depth - 1 + tokens.count .lparen := ih h
      rw [List.count_cons_self, List.count_cons_of_ne (by simp)]
      omega

/-- An operator cannot be taken in only if its own symbol is unknown: those that wait are found. -/
theorem Sound.result_step_op_eq_error_iff {e : EvalError} (h : Sound depth state) :
    (Conversion.step state (.op symbol)).result = .error e ↔ Operator.lookup symbol = .error e := by
  rw [(h.tracks_step (.op symbol)).result_eq_error_iff, depthAfter]
  cases Operator.lookup symbol with
  | ok operator =>
    rw [Run.ok_bind]
    constructor
    · intro he
      cases he
    · intro he
      cases he
  | error e' => rw [Run.error_bind, Except.error.injEq, Except.error.injEq]

/-- A right parenthesis puts out nothing but operators. -/
theorem Sound.exists_popped (h : Sound depth state)
    (hstep : (Conversion.step state .rparen).result = .ok next) :
    ∃ popped, state.stack = popped ++ .lparen :: next.stack ∧
      next.output = popped.reverse ++ state.output ∧ ∀ token ∈ popped, token.isOp = true := by
  obtain ⟨popped, rest, hs, hgroup, rfl⟩ := step_rparen_eq_ok.mp hstep
  refine ⟨popped, hs, rfl, fun token hm => ?_⟩
  rcases h.waiting token (by rw [hs]; exact List.mem_append_left _ hm) with rfl | hwaits
  · exact absurd hm hgroup
  · obtain ⟨symbol, operator, rfl, -⟩ := hwaits
    rfl

end Conversion

/-! ## Runs -/

open Conversion

variable {tokens : List Token} {state : Conversion}

/-- After each token, nothing waits but left parentheses and operators of the table. An operator is
taken in unless its own symbol is unknown, and a right parenthesis puts out operators only. The left
parentheses that wait are those that are open. Between them the operators bind more and more tightly
from the bottom to the top, so that there are at most two, and the stack is at most three times as
long as there are open groups, and two longer. -/
theorem waiting_operators_ascend
    (h : (tokens.foldlM Conversion.step Conversion.initial).result = .ok state) :
    (∀ token ∈ state.stack, token = .lparen ∨
        ∃ symbol operator, token = .op symbol ∧ (symbol, operator) ∈ Operator.table) ∧
      (∀ symbol e, (Conversion.step state (.op symbol)).result = .error e ↔
        Operator.lookup symbol = .error e) ∧
      (∀ next, (Conversion.step state .rparen).result = .ok next →
        ∃ popped, state.stack = popped ++ .lparen :: next.stack ∧
          next.output = popped.reverse ++ state.output ∧ ∀ token ∈ popped, token.isOp = true) ∧
      state.stack.count .lparen + tokens.count .rparen = tokens.count .lparen ∧
      (∀ segment, segment <:+: state.stack → .lparen ∉ segment →
        segment.Pairwise BindsTighter ∧ segment.length ≤ 2) ∧
      state.stack.length ≤ 3 * state.stack.count .lparen + 2 := by
  obtain ⟨depth, -, hsound⟩ := (Conversion.tracks_foldlM tokens).exists_of_result h
  have hgraded := graded_of_run h
  refine ⟨?_, fun symbol e => hsound.result_step_op_eq_error_iff,
    fun next hstep => hsound.exists_popped hstep, ?_, ?_, hgraded.length_le⟩
  · intro token hm
    rcases hsound.waiting token hm with hparen | ⟨symbol, operator, hop, hfound, -⟩
    · exact .inl hparen
    · exact .inr ⟨symbol, operator, hop, Operator.lookup_eq_ok_iff.mp hfound⟩
  · rw [count_of_foldlM_openAfter (accounts_of_run h).depth_eq, Nat.zero_add]
  · intro segment hs hgroup
    have hsegment := hgraded.of_infix hs
    have hlength := hsegment.length_le
    rw [List.count_eq_zero.mpr hgroup] at hlength
    exact ⟨hsegment.pairwise hgroup, hlength⟩

/-- In `2 + 3 * ( - 4 /` five tokens wait, which is as many as there can be. -/
theorem five_wait_in_one_group :
    ([Token.num "2", .op "+", .num "3", .op "*", .lparen, .op "-", .num "4", .op "/"].foldlM
        Conversion.step Conversion.initial).result
        = .ok ⟨[.num "4", .num "3", .num "2"], [.op "/", .op "-", .lparen, .op "*", .op "+"]⟩ ∧
      [Token.op "/", .op "-"].Pairwise BindsTighter ∧
      [Token.op "*", .op "+"].Pairwise BindsTighter ∧
      (Conversion.step ⟨[.num "4", .num "3", .num "2"],
        [.op "/", .op "-", .lparen, .op "*", .op "+"]⟩ (.op "%")).result
        = .error (.unknownOperator "%") := by
  have hrun : ([Token.num "2", .op "+", .num "3", .op "*", .lparen, .op "-", .num "4",
      .op "/"].foldlM Conversion.step Conversion.initial).result
      = .ok ⟨[.num "4", .num "3", .num "2"], [.op "/", .op "-", .lparen, .op "*", .op "+"]⟩ := rfl
  obtain ⟨-, hunknown, -, -, hsegments, -⟩ := waiting_operators_ascend hrun
  have htop := hsegments [.op "/", .op "-"] ⟨[], [.lparen, .op "*", .op "+"], rfl⟩ (by decide)
  have hbottom := hsegments [.op "*", .op "+"] ⟨[.op "/", .op "-", .lparen], [], rfl⟩ (by decide)
  exact ⟨hrun, htop.1, hbottom.1, (hunknown "%" _).mpr rfl⟩

end Reckon.Rpn
