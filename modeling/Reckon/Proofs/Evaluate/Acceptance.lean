import Reckon.Proofs.Evaluate.Sentences
import Reckon.Proofs.Token.Grouping

/-!
# Accepted expressions

An evaluation checks how many operands there are and not where they stand. So it accepts more than
the sentences of the grammar: a juxtaposed operand can make up for a missing one, as in `2 3 +`. It
accepts exactly the tokens whose postfix order is that of a tree, if the tree has a value. These
have as many juxtaposed operands as missing ones, and are a sentence if there are none. Main
statement: `accepted_iff_postorder`.
-/

namespace Reckon

open Token (juxtaposed missing)

namespace Expr

theorem exists_op_of_mem_postorder {tree : Expr} {symbol : String}
    (h : .op symbol ∈ tree.postorder) : ∃ op : BinOp, symbol = op.symbol := by
  induction tree with
  | literal text => simp [postorder] at h
  | binary op left right ihl ihr =>
    simp only [postorder, List.mem_append, List.mem_singleton] at h
    rcases h with (h | h) | h
    · exact ihl h
    · exact ihr h
    · exact ⟨op, Token.op.inj h⟩

end Expr

variable {tokens : List Token} {tree : Expr}

/-- Tokens with the postfix order of a tree have as many operands too many as too few. -/
theorem juxtaposed_eq_missing (h : (Rpn.ofInfix tokens).result = .ok tree.postorder) :
    juxtaposed true tokens = missing true tokens := by
  have hnum := Rpn.countP_of_result_ofInfix h (p := Token.isNum) rfl rfl
  have hop := Rpn.countP_of_result_ofInfix h (p := Token.isOp) rfl rfl
  have htree := tree.countP_isNum_postorder
  have hplaces := Token.juxtaposed_add true tokens
  simp only [if_true] at hplaces
  omega

/-- Well placed tokens with the postfix order of a tree are a sentence with that tree. -/
theorem sentence_of_missing_eq_zero (h : (Rpn.ofInfix tokens).result = .ok tree.postorder)
    (hmissing : missing true tokens = 0) : Sentence .expression tokens tree := by
  have hplaced : Token.WellPlaced true tokens :=
    Token.wellPlaced_iff.mpr ⟨(juxtaposed_eq_missing h).trans hmissing, hmissing⟩
  have hops : Token.Known tokens := by
    intro symbol hm
    rw [← Rpn.mem_iff_of_result_ofInfix h (by simp) (by simp)] at hm
    exact Expr.exists_op_of_mem_postorder hm
  obtain ⟨tree', hsentence⟩ :=
    exists_sentence_of_wellPlaced hplaced (Rpn.balanced_of_result_ofInfix h) hops
  have heq := (Rpn.result_ofInfix_of_sentence hsentence).symm.trans h
  obtain rfl : tree' = tree := Expr.postorder_injective (Except.ok.inj heq)
  exact hsentence

/-- The stages find a number exactly if the postfix order is that of a tree with this value. -/
theorem result_evaluateStages_eq_ok_iff {p : Arithmetic} {past : History} {source : String}
    {value : Float} :
    (evaluateStages p past source).result = .ok value ↔
      ∃ (tokens : List Token) (tree : Expr), (tokenize source).result = .ok tokens ∧
        (Rpn.ofInfix tokens).result = .ok tree.postorder ∧
        (do let (value, _) ← tree.evalFrom p past; return value : Run Float).result
          = .ok value := by
  rw [evaluateStages, Run.result_bind_eq_ok]
  simp only [Run.result_bind_eq_ok (r := Rpn.ofInfix _)]
  constructor
  · rintro ⟨tokens, htokens, out, hout, hvalue⟩
    obtain ⟨tree, rfl⟩ := Rpn.exists_tree_of_result_reduceFrom hvalue
    rw [Rpn.reduceFrom_postorder] at hvalue
    exact ⟨tokens, tree, htokens, hout, hvalue⟩
  · rintro ⟨tokens, tree, htokens, hout, hvalue⟩
    rw [← Rpn.reduceFrom_postorder] at hvalue
    exact ⟨tokens, htokens, tree.postorder, hout, hvalue⟩

/-- An evaluation finds a number exactly if the postfix order is that of a tree with this value. -/
theorem result_evaluateWith_eq_ok_iff {p : Arithmetic} {source : String} {value : Float} :
    (evaluateWith p source).result = .ok value ↔
      ∃ (tokens : List Token) (tree : Expr), (tokenize source).result = .ok tokens ∧
        (Rpn.ofInfix tokens).result = .ok tree.postorder ∧ (tree.eval p).result = .ok value := by
  by_cases hblank : Text.IsBlank source
  · constructor
    · intro h
      rw [evaluateWith, evaluateFrom_of_isBlank p [] hblank] at h
      cases h
    · rintro ⟨tokens, tree, htokens, hout, -⟩
      rw [result_tokenize, Scan.read_of_isBlank hblank] at htokens
      cases htokens
      exact absurd (Except.ok.inj hout).symm tree.postorder_ne_nil
  · rw [evaluateWith, (evaluateFrom_agrees p [] hblank).result_eq]
    exact result_evaluateStages_eq_ok_iff

/-- Where the numbers of juxtaposed and of missing operands differ, there is no value. -/
theorem exists_error_of_juxtaposed_ne_missing {source : String}
    (htokens : (tokenize source).result = .ok tokens)
    (hne : juxtaposed true tokens ≠ missing true tokens) (p : Arithmetic) :
    ∃ e, (evaluateWith p source).result = .error e := by
  cases hr : (evaluateWith p source).result with
  | error e => exact ⟨e, rfl⟩
  | ok value =>
    obtain ⟨tokens', tree, htokens', hout, -⟩ := result_evaluateWith_eq_ok_iff.mp hr
    obtain rfl : tokens = tokens' := Except.ok.inj (htokens.symm.trans htokens')
    exact absurd (juxtaposed_eq_missing hout) hne

/-- A text with a value need not be a sentence. -/
theorem not_only_sentences_are_accepted :
    ¬ ∀ (source : String) (value : Float), (evaluate source).result = .ok value →
      ∃ (tokens : List Token) (tree : Expr), (tokenize source).result = .ok tokens ∧
        Sentence .expression tokens tree := by
  intro h
  have hok : (evaluate "2 3 +").result = .ok 5 :=
    Run.result_eq_ok_of_toOption (by decide +kernel)
  obtain ⟨tokens, tree, htokens, hsentence⟩ := h "2 3 +" 5 hok
  have hread : (tokenize "2 3 +").result = .ok [.num "2", .num "3", .op "+"] := rfl
  rw [hread] at htokens
  cases htokens
  exact absurd hsentence.wellPlaced (by decide)

/-- A text has a value exactly if its tokens have the postfix order of a tree with that value.
Tokens with the postfix order of a tree have as many juxtaposed operands as missing ones, and
without either they are a sentence with that tree. Where the two numbers differ, the text has no
value. -/
theorem accepted_iff_postorder (p : Arithmetic) (source : String) :
    (∀ value, (evaluateWith p source).result = .ok value ↔
        ∃ (tokens : List Token) (tree : Expr), (tokenize source).result = .ok tokens ∧
          (Rpn.ofInfix tokens).result = .ok tree.postorder ∧ (tree.eval p).result = .ok value) ∧
      (∀ (tokens : List Token) (tree : Expr), (Rpn.ofInfix tokens).result = .ok tree.postorder →
        juxtaposed true tokens = missing true tokens ∧
          (missing true tokens = 0 → Sentence .expression tokens tree)) ∧
      ∀ tokens, (tokenize source).result = .ok tokens →
        juxtaposed true tokens ≠ missing true tokens →
          ∃ e, (evaluateWith p source).result = .error e := by
  refine ⟨fun value => result_evaluateWith_eq_ok_iff, fun tokens tree hout => ?_, ?_⟩
  · exact ⟨juxtaposed_eq_missing hout, sentence_of_missing_eq_zero hout⟩
  · intro tokens htokens hne
    exact exists_error_of_juxtaposed_ne_missing htokens hne p

/-- In `2 (3 *)` the juxtaposed group makes up for the operand that is missing in it, so that it has
the value of `2 * 3`. In `2 (3)` nothing is missing, and it has no value. -/
theorem group_makes_up_for_its_operand :
    (evaluate "2 (3 *)").result = .ok 6 ∧
      juxtaposed true [.num "2", .lparen, .num "3", .op "*", .rparen]
        = missing true [.num "2", .lparen, .num "3", .op "*", .rparen] ∧
      Sentence .expression [.num "2", .op "*", .num "3"]
        (.binary .mul (.literal "2") (.literal "3")) ∧
      ∃ e, (evaluate "2 (3)").result = .error e := by
  have hgroup : (Rpn.ofInfix [.num "2", .lparen, .num "3", .op "*", .rparen]).result
      = .ok (Expr.binary .mul (.literal "2") (.literal "3")).postorder := rfl
  have hvalue : ((Expr.binary .mul (.literal "2") (.literal "3")).eval .checked).result = .ok 6 :=
    Run.result_eq_ok_of_toOption (by decide +kernel)
  obtain ⟨haccepted, hpostorder, -⟩ := accepted_iff_postorder .checked "2 (3 *)"
  obtain ⟨-, -, hrejected⟩ := accepted_iff_postorder .checked "2 (3)"
  refine ⟨(haccepted 6).mpr ⟨_, _, rfl, hgroup, hvalue⟩, (hpostorder _ _ hgroup).1, ?_, ?_⟩
  · exact (hpostorder [.num "2", .op "*", .num "3"] _ rfl).2 rfl
  · exact hrejected [.num "2", .lparen, .num "3", .rparen] rfl (by decide)

end Reckon
