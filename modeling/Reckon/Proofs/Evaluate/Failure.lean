import Reckon.Proofs.Evaluate.Sentences
import Reckon.Proofs.Rpn.Defect
import Reckon.Proofs.Rpn.Failure
import Reckon.Proofs.Token.Characters

/-!
# Which error is reported

A text can be wrong in several ways at once. Which of them is reported can be told from its
characters, without reading or converting it: first comes the absence of anything but blanks, then
the first character that belongs to no token, then parentheses that do not pair up. Only a text that
has none of these defects comes to a call of the provider. Main statement:
`evaluate_fails_by_characters`.
-/

namespace Reckon

theorem Arithmetic.error_of_answer_checked {past : History} {call : Call} {e : EvalError}
    (h : checked.answer past call = .error e) : e = .divisionByZero := by
  obtain ⟨op, left, right⟩ := call
  cases op with
  | add | sub | mul => cases h
  | div =>
    simp only [answer, checked] at h
    split_ifs at h
    cases h
    rfl

theorem parensPair_iff {cs : List Char} :
    ParensPair cs ↔ (cs.filterMap Token.ofParen?).foldlM Token.openAfter 0 = some 0 := by
  rw [foldlM_openAfter_eq_some, ParensPair]
  simp only [Nat.zero_add, eq_comm]

instance : DecidablePred ParensPair :=
  fun _ => decidable_of_iff _ parensPair_iff.symm

variable {source : String}

theorem firstForeign?_of_isBlank (h : Text.IsBlank source) :
    firstForeign? source.toList = none := by
  rw [firstForeign?, List.find?_eq_none]
  intro c hc
  simp [isExpressionChar, h c hc]

theorem parensPair_of_isBlank (h : Text.IsBlank source) : ParensPair source.toList :=
  (balanced_iff_of_read (Scan.read_of_isBlank h)).mp rfl

section Provider

variable (p : Arithmetic) (past : History)

theorem evaluateFrom_of_foreign {c : Char} (h : firstForeign? source.toList = some c) :
    (evaluateFrom p past source).Agrees (Run.fail (.invalidCharacter c)) := by
  have hblank : ¬ Text.IsBlank source := by
    intro hb
    rw [firstForeign?_of_isBlank hb] at h
    cases h
  have htokens : (tokenize source).result = .error (.invalidCharacter c) := by
    rw [result_tokenize, Scan.read_of_foreign h]
  exact (evaluateFrom_agrees p past hblank).trans
    ((silent_tokenize source).bind_agrees_fail htokens _)

theorem evaluateFrom_of_not_parensPair (h : firstForeign? source.toList = none)
    (hpair : ¬ ParensPair source.toList) :
    (evaluateFrom p past source).Agrees (Run.fail .mismatchedParentheses) := by
  have hblank : ¬ Text.IsBlank source := fun hb => hpair (parensPair_of_isBlank hb)
  obtain ⟨tokens, hread⟩ := Scan.exists_read h
  have htokens : (tokenize source).result = .ok tokens := by rw [result_tokenize, hread]
  have hbalanced : ¬ Token.Balanced tokens := by rwa [balanced_iff_of_read hread]
  have hconvert := Rpn.result_ofInfix_of_not_balanced
    (fun symbol hm => Token.exists_op_of_read hread hm) hbalanced
  refine (evaluateFrom_agrees p past hblank).trans ?_
  refine ((silent_tokenize source).bind_agrees htokens _).trans ?_
  exact (Rpn.silent_ofInfix tokens).bind_agrees_fail hconvert _

/-- Past the characters and the parentheses, only operands and the provider can fail. -/
theorem error_of_evaluateFrom (hblank : ¬ Text.IsBlank source)
    (h : firstForeign? source.toList = none) (hpair : ParensPair source.toList) {e : EvalError}
    (he : (evaluateFrom p past source).result = .error e) :
    e = .invalidExpression ∨ ∃ past call, p.answer past call = .error e := by
  obtain ⟨tokens, hread⟩ := Scan.exists_read h
  have hops : Token.Known tokens := fun symbol hm => Token.exists_op_of_read hread hm
  have htokens : (tokenize source).result = .ok tokens := by rw [result_tokenize, hread]
  obtain ⟨out, hout⟩ := Rpn.exists_result_ofInfix hops ((balanced_iff_of_read hread).mpr hpair)
  have hopsOut : Token.Known out := by
    intro symbol hm
    exact hops symbol ((Rpn.mem_iff_of_result_ofInfix hout (by simp) (by simp)).mp hm)
  rw [(evaluateFrom_agrees p past hblank).result_eq, evaluateStages, Run.result_bind, htokens,
    Run.ok_bind, Run.result_bind, hout] at he
  exact Rpn.error_of_result_reduceFrom hopsOut he

end Provider

/-- The error of a text is that of its first defect, in the order of the checks. -/
theorem evaluate_fails_by_characters (source : String) :
    ((evaluate source).result = .error .emptyExpression ↔ Text.IsBlank source) ∧
      (¬ Text.IsBlank source → ∀ c, (evaluate source).result = .error (.invalidCharacter c) ↔
        firstForeign? source.toList = some c) ∧
      (¬ Text.IsBlank source → firstForeign? source.toList = none →
        ((evaluate source).result = .error .mismatchedParentheses ↔ ¬ ParensPair source.toList)) ∧
      (¬ Text.IsBlank source → firstForeign? source.toList = none → ParensPair source.toList →
        (∃ value, (evaluate source).result = .ok value) ∨
          (evaluate source).result = .error .invalidExpression ∨
          (evaluate source).result = .error .divisionByZero) ∧
      (∀ symbol, (evaluate source).result ≠ .error (.unknownOperator symbol)) ∧
      ∀ (p : Arithmetic) (past : History), Text.IsBlank source ∨
        firstForeign? source.toList ≠ none ∨ ¬ ParensPair source.toList →
          (evaluateFrom p past source).calls = [] := by
  by_cases hblank : Text.IsBlank source
  · have hr : (evaluate source).result = .error .emptyExpression := by
      rw [evaluate, evaluateWith, evaluateFrom_of_isBlank _ _ hblank]
      rfl
    have hsilent : ∀ p past, (evaluateFrom p past source).calls = [] := by
      intro p past
      rw [evaluateFrom_of_isBlank _ _ hblank]
      rfl
    simp [hr, hblank, hsilent]
  cases hforeign : firstForeign? source.toList with
  | some c =>
    have hr : (evaluate source).result = .error (.invalidCharacter c) :=
      (evaluateFrom_of_foreign .checked [] hforeign).result_eq
    have hsilent : ∀ p past, (evaluateFrom p past source).calls = [] :=
      fun p past => (evaluateFrom_of_foreign p past hforeign).calls_eq
    simp [hr, hblank, hsilent]
  | none =>
    by_cases hpair : ParensPair source.toList
    · have hcases : (∃ value, (evaluate source).result = .ok value) ∨
          (evaluate source).result = .error .invalidExpression ∨
          (evaluate source).result = .error .divisionByZero := by
        cases hr : (evaluate source).result with
        | ok value => exact .inl ⟨value, rfl⟩
        | error e =>
          have herror := error_of_evaluateFrom .checked [] hblank hforeign hpair hr
          rcases herror with rfl | ⟨past, call, he⟩
          · exact .inr (.inl rfl)
          · rw [Arithmetic.error_of_answer_checked he]
            exact .inr (.inr rfl)
      rcases hcases with ⟨value, hr⟩ | hr | hr <;> simp [hr, hblank, hpair]
    · have hr : (evaluate source).result = .error .mismatchedParentheses :=
        (evaluateFrom_of_not_parensPair .checked [] hforeign hpair).result_eq
      have hsilent : ∀ p past, (evaluateFrom p past source).calls = [] :=
        fun p past => (evaluateFrom_of_not_parensPair p past hforeign hpair).calls_eq
      simp [hr, hblank, hpair, hsilent]

theorem several_defects_at_once :
    (Text.IsBlank " \n" ∧ (evaluate " \n").result = .error .emptyExpression) ∧
      (firstForeign? ")1/0 % 2 3 ^".toList = some '%' ∧
        (evaluate ")1/0 % 2 3 ^").result = .error (.invalidCharacter '%')) ∧
      (¬ ParensPair "1/0 + )2(".toList ∧
        (evaluate "1/0 + )2(").result = .error .mismatchedParentheses ∧
        (evaluateFrom .ieee [] "1/0 + )2(").calls = []) := by
  have hblank : Text.IsBlank " \n" := List.all_eq_true.mp rfl
  have hforeign : ¬ Text.IsBlank ")1/0 % 2 3 ^" := fun h => absurd (h '1' (by decide)) (by decide)
  have hpair : ¬ Text.IsBlank "1/0 + )2(" := fun h => absurd (h '1' (by decide)) (by decide)
  have hopen : ¬ ParensPair "1/0 + )2(".toList := by decide
  obtain ⟨hempty, -⟩ := evaluate_fails_by_characters " \n"
  obtain ⟨-, hinvalid, -⟩ := evaluate_fails_by_characters ")1/0 % 2 3 ^"
  obtain ⟨-, -, hmismatched, -, -, hsilent⟩ := evaluate_fails_by_characters "1/0 + )2("
  exact ⟨⟨hblank, hempty.mpr hblank⟩, ⟨rfl, (hinvalid hforeign '%').mpr rfl⟩, hopen,
    (hmismatched hpair rfl).mpr hopen, hsilent .ieee [] (.inr (.inr hopen))⟩

end Reckon
