import Reckon.Grammar
import Reckon.Proofs.Expr
import Reckon.Proofs.Rpn.Nesting

/-!
# Postfix order of sentences

Taking the tokens of a sentence in puts out its tree in postfix order, up to a run of operators that
still wait on top of the stack. The operators of the run bind at least as tightly as those that the
category of the sentence allows outside of parentheses, and whatever was on the stack before stays
below them. A listing in postfix order determines its tree, so the grammar is unambiguous,
`Sentence.tree_unique`.
-/

namespace Reckon

/-- The least precedence of an operator outside of parentheses. -/
def Category.level : Category → Nat
  | expression => 1
  | term => 2
  | factor => 3

namespace Rpn

namespace Conversion

/-- Over a stack with no operator of the level on top, the tokens are taken in so that they have put
out the listing but for some operators of the level, which wait on top of that stack. -/
def Lists (level : Nat) (tokens listing : List Token) : Prop :=
  ∀ output stack, Quiet level stack →
    ∃ out waiting, (tokens.foldlM step ⟨output, stack⟩).result = .ok ⟨out, waiting ++ stack⟩ ∧
      (∀ token ∈ waiting, BindsAtLeast level token) ∧
      waiting.reverse ++ out = listing.reverse ++ output

variable {level : Nat} {tokens listing : List Token}

theorem lists_literal (level : Nat) (text : String) : Lists level [.num text] [.num text] := by
  intro output stack _
  refine ⟨.num text :: output, [], ?_, by simp, rfl⟩
  rw [Run.result_foldlM]
  rfl

theorem Lists.mono {level' : Nat} (hl : level' ≤ level) (h : Lists level tokens listing) :
    Lists level' tokens listing := by
  intro output stack hquiet
  obtain ⟨out, waiting, hrun, hwait, hlist⟩ := h output stack (hquiet.mono hl)
  exact ⟨out, waiting, hrun, fun token ht => (hwait token ht).mono hl, hlist⟩

/-- Tokens that are listed over any stack are listed by a conversion. -/
theorem Lists.result_ofInfix (h : Lists level tokens listing) :
    (ofInfix tokens).result = .ok listing := by
  obtain ⟨out, waiting, hrun, hwait, hlist⟩ := h [] [] (quiet_nil _)
  rw [List.append_nil] at hrun hlist
  have hfinish : (finish ⟨out, waiting⟩).result = .ok listing := by
    rw [finish_eq_ok]
    refine ⟨fun hm => (hwait _ hm).ne_lparen rfl, ?_⟩
    rw [← List.reverse_reverse waiting, ← List.reverse_append, hlist, List.reverse_reverse]
  rw [ofInfix, Run.result_bind, initial, hrun]
  exact hfinish

/-- A group leaves nothing waiting. -/
theorem lists_group (level : Nat) (h : (ofInfix tokens).result = .ok listing) :
    Lists level (.lparen :: (tokens ++ [.rparen])) listing := by
  intro output stack _
  exact ⟨listing.reverse ++ output, [], result_foldlM_group h output stack, by simp, rfl⟩

/-- An operator of the level joins tokens of the level and tokens of the next tighter one. -/
theorem Lists.binary {op : BinOp} (hop : Operator.lookup op.symbol = .ok ⟨level, op⟩)
    {lefts rights ls rs : List Token} (hl : Lists level lefts ls)
    (hr : Lists (level + 1) rights rs) :
    Lists level (lefts ++ .op op.symbol :: rights) (ls ++ rs ++ [.op op.symbol]) := by
  intro output stack hquiet
  obtain ⟨out₁, waiting₁, hrun₁, hwait₁, hlist₁⟩ := hl output stack hquiet
  -- all that the left operand has left waiting is put out, and nothing below it
  have hstep : (step ⟨out₁, waiting₁ ++ stack⟩ (.op op.symbol)).result
      = .ok ⟨waiting₁.reverse ++ out₁, .op op.symbol :: stack⟩ :=
    step_op_eq_ok.mpr ⟨⟨level, op⟩, waiting₁, stack, hop, rfl, rfl, hwait₁, hquiet⟩
  have hquiet₂ : Quiet (level + 1) (.op op.symbol :: stack) := by
    intro symbol rest hs
    obtain ⟨ht, -⟩ := List.cons.inj hs
    obtain rfl := Token.op.inj ht
    exact ⟨⟨level, op⟩, hop, Nat.lt_succ_self level⟩
  obtain ⟨out₂, waiting₂, hrun₂, hwait₂, hlist₂⟩ := hr (waiting₁.reverse ++ out₁) _ hquiet₂
  refine ⟨out₂, waiting₂ ++ [.op op.symbol], ?_, ?_, ?_⟩
  · rw [Run.result_foldlM_append hrun₁, List.foldlM_cons, Run.result_bind, hstep, Run.ok_bind,
      hrun₂, List.append_assoc]
    rfl
  · intro token ht
    rcases List.mem_append.mp ht with ht | ht
    · exact (hwait₂ token ht).mono (Nat.le_succ level)
    · exact ⟨op.symbol, ⟨level, op⟩, List.mem_singleton.mp ht, hop, Nat.le_refl level⟩
  · calc (waiting₂ ++ [Token.op op.symbol]).reverse ++ out₂
        = Token.op op.symbol :: (waiting₂.reverse ++ out₂) := by simp
      _ = Token.op op.symbol :: (rs.reverse ++ (ls.reverse ++ output)) := by rw [hlist₂, hlist₁]
      _ = (ls ++ rs ++ [Token.op op.symbol]).reverse ++ output := by simp

/-- Sentences are listed in postfix order. -/
theorem lists_of_sentence {category : Category} {tree : Expr}
    (h : Sentence category tokens tree) : Lists category.level tokens tree.postorder := by
  induction h with
  | literal text => exact lists_literal _ text
  | group _ ih => exact lists_group _ ih.result_ofInfix
  | factor _ ih => exact ih.mono (by decide)
  | product hop _ _ ihl ihr =>
    refine ihl.binary ?_ ihr
    rcases hop with rfl | rfl <;> rfl
  | term _ ih => exact ih.mono (by decide)
  | sum hop _ _ ihl ihr =>
    refine ihl.binary ?_ ihr
    rcases hop with rfl | rfl <;> rfl

end Conversion

/-- A sentence is converted into its tree in postfix order. -/
theorem result_ofInfix_of_sentence {tokens : List Token} {tree : Expr}
    (h : Sentence .expression tokens tree) : (ofInfix tokens).result = .ok tree.postorder :=
  (Conversion.lists_of_sentence h).result_ofInfix

end Rpn

/-- The grammar is unambiguous. -/
theorem Sentence.tree_unique {tokens : List Token} {tree tree' : Expr}
    (h : Sentence .expression tokens tree) (h' : Sentence .expression tokens tree') :
    tree = tree' := by
  have heq := (Rpn.result_ofInfix_of_sentence h).symm.trans (Rpn.result_ofInfix_of_sentence h')
  exact Expr.postorder_injective (Except.ok.inj heq)

end Reckon
