import Reckon.Proofs.Rpn.Failure
import Reckon.Proofs.Token.Nested

/-!
# The first offence of a conversion

Two kinds of token cannot be converted: an operator whose symbol is in no row of the table, and a
right parenthesis where no group is open. The first such token decides the error, whatever follows
it. Where there is none, the conversion fails only if a left parenthesis is never closed. Literals
have no part in this, so neither have missing operands, and empty groups have none either. Main
statement: `conversion_fails_at_first_offence`.

A group is open if the tokens behind its left parenthesis do not close it. This is said of the
tokens alone; the number of open groups, which the conversion keeps on its stack, is zero exactly if
no group is open, `leavesOpen_iff`.
-/

namespace Reckon

namespace Token

/-! ## Open groups -/

/-- Behind a left parenthesis, the tokens close its group: up to some right parenthesis they are
balanced. -/
def CloseGroup (after : List Token) : Prop :=
  ∃ inner rest, after = inner ++ .rparen :: rest ∧ Balanced inner

/-- The tokens have a left parenthesis whose group they do not close. -/
def LeavesOpen (tokens : List Token) : Prop :=
  ∃ before after, tokens = before ++ .lparen :: after ∧ ¬ CloseGroup after

variable {tokens inner after : List Token} {depth last : Nat}

theorem CloseGroup.append (h : CloseGroup after) (more : List Token) :
    CloseGroup (after ++ more) := by
  obtain ⟨inner, rest, rfl, hinner⟩ := h
  exact ⟨inner, rest ++ more, by simp, hinner⟩

/-- Balanced tokens do not close the group that they stand in. -/
theorem Balanced.not_closeGroup (h : Balanced inner) : ¬ CloseGroup inner := by
  rintro ⟨before, rest, rfl, hbefore⟩
  rw [hbefore.append_iff] at h
  cases h

/-- Behind a left parenthesis, either the group is closed, or it is open and with it all the groups
that are open inside of it. -/
theorem closeGroup_or_inside (h : after.foldlM openAfter (depth + 1) = some last) :
    CloseGroup after ∨
      ∃ more, last = depth + 1 + more ∧ after.foldlM openAfter 0 = some more := by
  induction after using List.reverseRecOn generalizing last with
  | nil =>
    cases h
    exact .inr ⟨0, rfl, rfl⟩
  | append_singleton after token ih =>
    obtain ⟨between, hbetween, hstep⟩ := foldlM_openAfter_append_singleton.mp h
    rcases ih hbetween with hclose | ⟨more, rfl, hinside⟩
    · exact .inl (hclose.append [token])
    have hsnoc {inside : Nat} (htoken : openAfter more token = some inside) :
        (after ++ [token]).foldlM openAfter 0 = some inside :=
      foldlM_openAfter_append_singleton.mpr ⟨more, hinside, htoken⟩
    cases token with
    | num text | op symbol =>
      cases hstep
      exact .inr ⟨more, rfl, hsnoc rfl⟩
    | lparen =>
      cases hstep
      exact .inr ⟨more + 1, rfl, hsnoc rfl⟩
    | rparen =>
      by_cases hmore : more = 0
      · -- this parenthesis is the one that closes the group
        subst hmore
        exact .inl ⟨after, [], rfl, hinside⟩
      · rw [openAfter, if_neg (by omega), Option.some.injEq] at hstep
        exact .inr ⟨more - 1, by omega, hsnoc (if_neg hmore)⟩

/-- Tokens leave a group open exactly if the number of open groups is not zero. -/
theorem leavesOpen_iff (h : tokens.foldlM openAfter 0 = some depth) :
    LeavesOpen tokens ↔ depth ≠ 0 := by
  constructor
  · rintro ⟨before, after, rfl, hopen⟩ rfl
    obtain ⟨outer, -, hafter⟩ := foldlM_openAfter_append.mp h
    have hinner : after.foldlM openAfter (outer + 1) = some 0 := hafter
    rcases closeGroup_or_inside hinner with hclose | ⟨more, hmore, -⟩
    · exact hopen hclose
    · omega
  · intro hd
    have hopened := opened_of_foldlM h
    cases hopened with
    | none => exact absurd rfl hd
    | @group depth tokens inner outer inside =>
      exact ⟨tokens, inner, rfl, inside.balanced.not_closeGroup⟩

end Token

namespace Rpn

open Token (depthAfter openAfter LeavesOpen)

/-! ## Offences -/

/-- A token behind the tokens `before` cannot be converted, for the given reason. -/
inductive Offence (before : List Token) : Token → EvalError → Prop
  /-- The symbol is in no row of the table. -/
  | symbol {symbol : String} (unknown : ∀ operator, (symbol, operator) ∉ Operator.table) :
      Offence before (.op symbol) (.unknownOperator symbol)
  /-- No group is open that the parenthesis could close. -/
  | rparen (closed : ¬ LeavesOpen before) : Offence before .rparen .mismatchedParentheses

/-- Each of the tokens can be converted where it stands. -/
def Inoffensive (tokens : List Token) : Prop :=
  ∀ before token after, tokens = before ++ token :: after → ∀ e, ¬ Offence before token e

variable {tokens before : List Token} {token : Token} {depth depth' : Nat} {e : EvalError}

theorem openAfter_of_depthAfter (h : depthAfter depth token = .ok depth') :
    openAfter depth token = some depth' := by
  cases token with
  | num text =>
    cases h
    rfl
  | op symbol =>
    rw [depthAfter] at h
    cases hop : Operator.lookup symbol with
    | error e =>
      rw [hop] at h
      cases h
    | ok operator =>
      rw [hop] at h
      cases h
      rfl
  | lparen =>
    cases h
    rfl
  | rparen =>
    rw [depthAfter] at h
    split_ifs at h with hd
    cases h
    rw [openAfter, if_neg hd]

theorem foldlM_openAfter_of_depthAfter (h : tokens.foldlM depthAfter 0 = .ok depth) :
    tokens.foldlM openAfter 0 = some depth := by
  refine Run.ok_foldlM_induction (I := fun done depth => done.foldlM openAfter 0 = some depth) rfl
    (fun done depth token depth' hdone htoken => ?_) h
  exact Token.foldlM_openAfter_append_singleton.mpr ⟨depth, hdone, openAfter_of_depthAfter htoken⟩

/-- The number of open groups tells which tokens are offences. -/
theorem depthAfter_eq_error_iff (h : before.foldlM openAfter 0 = some depth) :
    depthAfter depth token = .error e ↔ Offence before token e := by
  constructor
  · intro he
    cases token with
    | num text => cases he
    | op symbol =>
      rw [depthAfter] at he
      cases hop : Operator.lookup symbol with
      | error e' =>
        rw [hop] at he
        cases he
        obtain ⟨hunknown, rfl⟩ := Operator.lookup_eq_error_iff.mp hop
        exact .symbol hunknown
      | ok operator =>
        rw [hop] at he
        cases he
    | lparen => cases he
    | rparen =>
      rw [depthAfter] at he
      split_ifs at he with hd
      cases he
      exact .rparen fun hopen => (Token.leavesOpen_iff h).mp hopen hd
  · intro hoffence
    cases hoffence with
    | symbol unknown =>
      rw [depthAfter, Operator.lookup_eq_error_iff.mpr ⟨unknown, rfl⟩]
      rfl
    | rparen closed =>
      rw [Token.leavesOpen_iff h, not_not] at closed
      rw [depthAfter, if_pos closed]

theorem Inoffensive.of_append {after : List Token} (h : Inoffensive (before ++ after)) :
    Inoffensive before := by
  intro first token rest hsplit
  exact h first token (rest ++ after) (by rw [hsplit]; simp)

/-- Inoffensive tokens are those that have a depth. -/
theorem inoffensive_iff : Inoffensive tokens ↔ ∃ depth, tokens.foldlM depthAfter 0 = .ok depth := by
  constructor
  · intro h
    induction tokens using List.reverseRecOn with
    | nil => exact ⟨0, rfl⟩
    | append_singleton tokens token ih =>
      obtain ⟨depth, hdepth⟩ := ih h.of_append
      cases htoken : depthAfter depth token with
      | ok depth' => exact ⟨depth', by simp [List.foldlM_append, hdepth, htoken]⟩
      | error e =>
        have hopen := foldlM_openAfter_of_depthAfter hdepth
        exact absurd ((depthAfter_eq_error_iff hopen).mp htoken) (h tokens token [] rfl e)
  · rintro ⟨depth, hdepth⟩ before token after rfl e hoffence
    rw [List.foldlM_append] at hdepth
    cases hbefore : before.foldlM depthAfter 0 with
    | error e =>
      rw [hbefore] at hdepth
      cases hdepth
    | ok between =>
      have hopen := foldlM_openAfter_of_depthAfter hbefore
      rw [hbefore, Run.ok_bind, List.foldlM_cons,
        (depthAfter_eq_error_iff hopen).mpr hoffence] at hdepth
      cases hdepth

/-- Tokens with an offence have a first one. -/
theorem exists_first_offence (h : ¬ Inoffensive tokens) :
    ∃ before token after e, tokens = before ++ token :: after ∧ Inoffensive before ∧
      Offence before token e := by
  induction tokens using List.reverseRecOn with
  | nil => exact absurd (inoffensive_iff.mpr ⟨0, rfl⟩) h
  | append_singleton tokens token ih =>
    by_cases hbefore : Inoffensive tokens
    · obtain ⟨depth, hdepth⟩ := inoffensive_iff.mp hbefore
      cases htoken : depthAfter depth token with
      | ok depth' =>
        have hwhole : (tokens ++ [token]).foldlM depthAfter 0 = .ok depth' := by
          simp [List.foldlM_append, hdepth, htoken]
        exact absurd (inoffensive_iff.mpr ⟨depth', hwhole⟩) h
      | error e =>
        have hopen := foldlM_openAfter_of_depthAfter hdepth
        exact ⟨tokens, token, [], e, rfl, hbefore, (depthAfter_eq_error_iff hopen).mp htoken⟩
    · obtain ⟨before, first, after, e, rfl, hinoffensive, hoffence⟩ := ih hbefore
      exact ⟨before, first, after ++ [token], e, by simp, hinoffensive, hoffence⟩

/-! ## Errors of a conversion -/

/-- A conversion fails if the tokens have no depth, or in the end because a group is open. -/
theorem result_ofInfix_eq_error_iff :
    (ofInfix tokens).result = .error e ↔ tokens.foldlM depthAfter 0 = .error e ∨
      ∃ depth, tokens.foldlM depthAfter 0 = .ok depth ∧ depth ≠ 0 ∧
        e = .mismatchedParentheses := by
  have h := result_ofInfix tokens
  cases hdepth : tokens.foldlM depthAfter 0 with
  | error e' =>
    have herror : (ofInfix tokens).result = .error e' := by simpa only [hdepth] using h
    simp [herror]
  | ok depth =>
    by_cases hd : depth = 0
    · obtain ⟨out, hout⟩ : ∃ out, (ofInfix tokens).result = .ok out := by
        simpa only [hdepth, if_pos hd] using h
      simp [hout, hd]
    · have herror : (ofInfix tokens).result = .error .mismatchedParentheses := by
        simpa only [hdepth, if_neg hd] using h
      simp [herror, hd, eq_comm]

/-- Whatever follows the first offence, its error is that of the conversion. -/
theorem result_ofInfix_of_first_offence {after : List Token} (hbefore : Inoffensive before)
    (h : Offence before token e) : (ofInfix (before ++ token :: after)).result = .error e := by
  obtain ⟨depth, hdepth⟩ := inoffensive_iff.mp hbefore
  have hopen := foldlM_openAfter_of_depthAfter hdepth
  rw [result_ofInfix_eq_error_iff]
  left
  rw [List.foldlM_append, hdepth, Run.ok_bind, List.foldlM_cons,
    (depthAfter_eq_error_iff hopen).mpr h]
  rfl

/-- Literals do not change the depth. -/
theorem foldlM_depthAfter_filter (depth : Nat) (tokens : List Token) :
    (tokens.filter fun token => !token.isNum).foldlM depthAfter depth
      = tokens.foldlM depthAfter depth := by
  induction tokens generalizing depth with
  | nil => rfl
  | cons token tokens ih =>
    cases token with
    | num text => exact ih depth
    | op symbol | lparen | rparen =>
      rw [List.filter_cons_of_pos rfl, List.foldlM_cons, List.foldlM_cons]
      simp only [ih]

/-- An empty group does not change the depth. -/
theorem foldlM_depthAfter_empty_group (depth : Nat) (before after : List Token) :
    (before ++ .lparen :: .rparen :: after).foldlM depthAfter depth
      = (before ++ after).foldlM depthAfter depth := by
  rw [List.foldlM_append, List.foldlM_append]
  rfl

/-- The first offence decides the error of a conversion. Without one it fails if a group is left
open, and has a result otherwise. Its error is the same without the literals and with an empty group
more. -/
theorem conversion_fails_at_first_offence (tokens : List Token) :
    (∀ before token after e, tokens = before ++ token :: after → Inoffensive before →
        Offence before token e → (ofInfix tokens).result = .error e) ∧
      (¬ Inoffensive tokens → ∃ before token after e, tokens = before ++ token :: after ∧
        Inoffensive before ∧ Offence before token e) ∧
      (Inoffensive tokens → LeavesOpen tokens →
        (ofInfix tokens).result = .error .mismatchedParentheses) ∧
      (Inoffensive tokens → ¬ LeavesOpen tokens → ∃ out, (ofInfix tokens).result = .ok out) ∧
      (∀ e, (ofInfix (tokens.filter fun token => !token.isNum)).result = .error e ↔
        (ofInfix tokens).result = .error e) ∧
      ∀ before after e, tokens = before ++ after →
        ((ofInfix (before ++ .lparen :: .rparen :: after)).result = .error e ↔
          (ofInfix tokens).result = .error e) := by
  refine ⟨?_, exists_first_offence, ?_, ?_, ?_, ?_⟩
  · rintro before token after e rfl hbefore hoffence
    exact result_ofInfix_of_first_offence hbefore hoffence
  · intro hinoffensive hleaves
    obtain ⟨depth, hdepth⟩ := inoffensive_iff.mp hinoffensive
    have hd := (Token.leavesOpen_iff (foldlM_openAfter_of_depthAfter hdepth)).mp hleaves
    exact result_ofInfix_eq_error_iff.mpr (.inr ⟨depth, hdepth, hd, rfl⟩)
  · intro hinoffensive hleaves
    obtain ⟨depth, hdepth⟩ := inoffensive_iff.mp hinoffensive
    rw [Token.leavesOpen_iff (foldlM_openAfter_of_depthAfter hdepth), not_not] at hleaves
    have hresult := result_ofInfix tokens
    simpa only [hdepth, if_pos hleaves] using hresult
  · intro e
    rw [result_ofInfix_eq_error_iff, result_ofInfix_eq_error_iff, foldlM_depthAfter_filter]
  · rintro before after e rfl
    rw [result_ofInfix_eq_error_iff, result_ofInfix_eq_error_iff, foldlM_depthAfter_empty_group]

/-- In `( ) ) 2 %` the parenthesis comes first, and in `( 1 % ) )` the symbol. In `( 1 ( )` a group
is never closed; in `( ) 1 2 *` nothing is wrong here. -/
theorem parenthesis_before_symbol_and_after_it :
    (ofInfix [.lparen, .rparen, .rparen, .num "2", .op "%"]).result
        = .error .mismatchedParentheses ∧
      (ofInfix [.lparen, .num "1", .op "%", .rparen, .rparen]).result
        = .error (.unknownOperator "%") ∧
      (ofInfix [.lparen, .num "1", .lparen, .rparen]).result = .error .mismatchedParentheses ∧
      ∃ out, (ofInfix [.lparen, .rparen, .num "1", .num "2", .op "*"]).result = .ok out := by
  have hunknown : ∀ operator, ("%", operator) ∉ Operator.table :=
    (Operator.lookup_eq_error_iff.mp rfl).1
  have hclosed : ¬ LeavesOpen [.lparen, .rparen] := fun h => (Token.leavesOpen_iff rfl).mp h rfl
  have hdepth : [.lparen, .num "1", .lparen, .rparen].foldlM openAfter 0 = some 1 := rfl
  have hopen : LeavesOpen [.lparen, .num "1", .lparen, .rparen] :=
    (Token.leavesOpen_iff hdepth).mpr (by decide)
  have hpaired : ¬ LeavesOpen [.lparen, .rparen, .num "1", .num "2", .op "*"] :=
    fun h => (Token.leavesOpen_iff rfl).mp h rfl
  obtain ⟨hparen, -⟩ :=
    conversion_fails_at_first_offence [.lparen, .rparen, .rparen, .num "2", .op "%"]
  obtain ⟨hsymbol, -⟩ :=
    conversion_fails_at_first_offence [.lparen, .num "1", .op "%", .rparen, .rparen]
  obtain ⟨-, -, hunclosed, -⟩ :=
    conversion_fails_at_first_offence [.lparen, .num "1", .lparen, .rparen]
  obtain ⟨-, -, -, hresult, -⟩ :=
    conversion_fails_at_first_offence [.lparen, .rparen, .num "1", .num "2", .op "*"]
  exact ⟨hparen _ _ _ _ rfl (inoffensive_iff.mpr ⟨0, rfl⟩) (.rparen hclosed),
    hsymbol [.lparen, .num "1"] _ _ _ rfl (inoffensive_iff.mpr ⟨1, rfl⟩) (.symbol hunknown),
    hunclosed (inoffensive_iff.mpr ⟨1, rfl⟩) hopen,
    hresult (inoffensive_iff.mpr ⟨0, rfl⟩) hpaired⟩

end Rpn

end Reckon
