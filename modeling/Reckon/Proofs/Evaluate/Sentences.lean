import Reckon.Proofs.Evaluate.Shortcut

/-!
# Evaluation of sentences

A written form of a sentence has the value of its tree, whatever blanks stand between its tokens:
the left operand is evaluated before the right one, and both before the operation is called. Main
statement: `evaluateWith_of_written`.
-/

namespace Reckon

theorem Scan.read_of_isBlank {source : String} (h : Text.IsBlank source) :
    Scan.read source.toList = .ok [] := by
  rw [read, foldlM_blanks h, Run.ok_bind, tokens_after_blanks]
  rfl

/-- A text whose tokens have the postfix order of a tree has the outcome of the tree. -/
theorem evaluateFrom_of_postorder {tokens : List Token} {tree : Expr} {source : String}
    (hread : Scan.read source.toList = .ok tokens)
    (hconvert : (Rpn.ofInfix tokens).result = .ok tree.postorder) (p : Arithmetic)
    (past : History) :
    (evaluateFrom p past source).Agrees (do
      let (value, _) ← tree.evalFrom p past
      return value) := by
  have hblank : ¬ Text.IsBlank source := by
    intro hb
    rw [Scan.read_of_isBlank hb] at hread
    obtain rfl : [] = tokens := Except.ok.inj hread
    exact tree.postorder_ne_nil (Except.ok.inj hconvert).symm
  exact (evaluateFrom_agrees p past hblank).trans
    (evaluateStages_of_postorder hread hconvert p past)

/-- A text that is read as a sentence has the outcome of its tree. -/
theorem evaluateWith_of_sentence {tokens : List Token} {tree : Expr} {source : String}
    (h : Sentence .expression tokens tree) (hread : Scan.read source.toList = .ok tokens)
    (p : Arithmetic) : (evaluateWith p source).Agrees (tree.eval p) :=
  evaluateFrom_of_postorder hread (Rpn.result_ofInfix_of_sentence h) p []

/-- A text with a value has tokens with the postfix order of a tree, and the outcome of that tree.
-/
theorem exists_tree_of_result_evaluateFrom {p : Arithmetic} {past : History} {source : String}
    {value : Float} (h : (evaluateFrom p past source).result = .ok value) :
    ∃ (tokens : List Token) (tree : Expr), Scan.read source.toList = .ok tokens ∧
      (Rpn.ofInfix tokens).result = .ok tree.postorder ∧
      (evaluateFrom p past source).Agrees (do
        let (value, _) ← tree.evalFrom p past
        return value) := by
  have hblank : ¬ Text.IsBlank source := by
    intro hb
    rw [evaluateFrom_of_isBlank p past hb] at h
    cases h
  rw [(evaluateFrom_agrees p past hblank).result_eq, evaluateStages,
    Run.result_bind_eq_ok] at h
  obtain ⟨tokens, htokens, h⟩ := h
  rw [Run.result_bind_eq_ok] at h
  obtain ⟨out, hout, h⟩ := h
  obtain ⟨tree, rfl⟩ := Rpn.exists_tree_of_result_reduceFrom h
  rw [result_tokenize] at htokens
  exact ⟨tokens, tree, htokens, hout, evaluateFrom_of_postorder htokens hout p past⟩

/-- Every written form of an expression has the outcome of the tree of the expression. -/
theorem evaluateWith_of_written {tokens : List Token} {tree : Expr} {source : String}
    (h : Sentence .expression tokens tree) (hl : ∀ text, .num text ∈ tokens → IsLiteralText text)
    (hw : Written tokens source.toList) (p : Arithmetic) :
    (evaluateWith p source).Agrees (tree.eval p) :=
  evaluateWith_of_sentence h (h.read_of_written hl hw) p

theorem subtraction_of_a_negative_literal :
    (evaluateWith .checked "8 -(4- -3)").Agrees (Expr.eval .checked
      (.binary .sub (.literal "8") (.binary .sub (.literal "4") (.literal "-3")))) := by
  have h : Sentence .expression
      [.num "8", .op "-", .lparen, .num "4", .op "-", .num "-3", .rparen]
      (.binary .sub (.literal "8") (.binary .sub (.literal "4") (.literal "-3"))) :=
    .sum (.inr rfl) (.term (.factor (.literal "8")))
      (.factor (.group
        (.sum (.inr rfl) (.term (.factor (.literal "4"))) (.factor (.literal "-3")))))
  have hl : ∀ text, Token.num text ∈
      [.num "8", .op "-", .lparen, .num "4", .op "-", .num "-3", .rparen] → IsLiteralText text := by
    intro text ht
    simp at ht
    rcases ht with rfl | rfl | rfl
    · exact ⟨[], ['8'], [], [], rfl, .inl rfl, .inr ⟨rfl, rfl⟩, by simp, by simp⟩
    · exact ⟨[], ['4'], [], [], rfl, .inl rfl, .inr ⟨rfl, rfl⟩, by simp, by simp⟩
    · exact ⟨['-'], ['3'], [], [], rfl, .inr rfl, .inr ⟨rfl, rfl⟩, by simp, by simp⟩
  have hblank : ∀ c ∈ [' '], Text.isBlank c = true := List.all_eq_true.mp rfl
  have hnone : ∀ c ∈ ([] : List Char), Text.isBlank c = true := by simp
  have hw : Written [.num "8", .op "-", .lparen, .num "4", .op "-", .num "-3", .rparen]
      "8 -(4- -3)".toList :=
    .token hnone (.token hblank (.token hnone (.token hnone (.token hnone (.token hblank
      (.token hnone (.blanks hnone)))))))
  exact evaluateWith_of_written h hl hw .checked

end Reckon
