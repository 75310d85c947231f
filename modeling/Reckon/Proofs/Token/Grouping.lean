import Reckon.Proofs.Rpn.Conservation
import Reckon.Proofs.Token.Placement

/-!
# Sentences from well placed tokens

Tokens are a sentence if they are well placed, their parentheses pair up and their operators are
those of the grammar. The tokens are taken from left to right. What has been taken is cut at the
left parentheses that are open, and each piece is an expression, or waits for the next operand.
-/

namespace Reckon

open Token (Known WellPlaced openAfter)

/-- An operation on an expression and a factor can always be grouped so that it is an expression. -/
theorem Sentence.exists_append_factor {ls rs : List Token} {left right : Expr}
    (hl : Sentence .expression ls left) (op : BinOp) (hr : Sentence .factor rs right) :
    ∃ tree, Sentence .expression (ls ++ .op op.symbol :: rs) tree := by
  have hproduct : op = .mul ∨ op = .div →
      ∃ tree, Sentence .expression (ls ++ .op op.symbol :: rs) tree := by
    intro hop
    cases hl with
    | term inner => exact ⟨_, .term (.product hop inner hr)⟩
    | sum hsum first second =>
      -- the product binds more tightly than the sum that it follows
      have h := Sentence.sum hsum first (.product hop second hr)
      exact ⟨_, by simpa using h⟩
  cases op with
  | add => exact ⟨_, .sum (.inl rfl) hl (.factor hr)⟩
  | sub => exact ⟨_, .sum (.inr rfl) hl (.factor hr)⟩
  | mul => exact hproduct (.inl rfl)
  | div => exact hproduct (.inr rfl)

/-- The tokens of a group so far: an expression, or what can stand in front of an operand. -/
def Begins : Bool → List Token → Prop
  | false, tokens => ∃ tree, Sentence .expression tokens tree
  | true, tokens => tokens = [] ∨ ∃ (ls : List Token) (left : Expr) (op : BinOp),
      Sentence .expression ls left ∧ tokens = ls ++ [.op op.symbol]

theorem begins_nil : Begins true [] := Or.inl rfl

/-- The tokens in front of the latest group, of so many that are open. -/
inductive Opens : Nat → List Token → Prop where
  | none : Opens 0 []
  | group {depth : Nat} {before tokens : List Token} (outer : Opens depth before)
      (begins : Begins true tokens) : Opens (depth + 1) (before ++ tokens ++ [.lparen])

theorem Begins.append_factor {tokens rs : List Token} {right : Expr} (h : Begins true tokens)
    (hr : Sentence .factor rs right) : Begins false (tokens ++ rs) := by
  rcases h with rfl | ⟨ls, left, op, hl, rfl⟩
  · exact ⟨right, .term (.factor hr)⟩
  · obtain ⟨tree, h⟩ := hl.exists_append_factor op hr
    exact ⟨tree, by simpa using h⟩

/-- Well placed tokens complete what has been begun. -/
theorem exists_sentence_append {depth : Nat} {expected : Bool} {before tokens rest : List Token}
    (hopens : Opens depth before) (hbegins : Begins expected tokens)
    (hplaced : WellPlaced expected rest) (hdepth : rest.foldlM openAfter depth = some 0)
    (hops : Known rest) : ∃ tree, Sentence .expression (before ++ tokens ++ rest) tree := by
  induction rest generalizing depth expected before tokens with
  | nil =>
    cases hplaced
    obtain rfl : depth = 0 := Option.some.inj hdepth
    cases hopens
    rw [List.nil_append, List.append_nil]
    exact hbegins
  | cons token rest ih =>
    obtain ⟨hstarts, hplaced⟩ := hplaced
    have hops' : Known rest := hops.mono (List.subset_cons_self _ _)
    rw [List.foldlM_cons] at hdepth
    cases token with
    | num text =>
      subst hstarts
      have h := ih hopens (hbegins.append_factor (.literal text)) hplaced hdepth hops'
      simpa using h
    | op symbol =>
      subst hstarts
      obtain ⟨tree, htree⟩ := hbegins
      obtain ⟨op, rfl⟩ := hops symbol List.mem_cons_self
      have hbegins : Begins true (tokens ++ [.op op.symbol]) :=
        Or.inr ⟨tokens, tree, op, htree, rfl⟩
      have h := ih hopens hbegins hplaced hdepth hops'
      simpa using h
    | lparen =>
      subst hstarts
      have h := ih (.group hopens hbegins) begins_nil hplaced hdepth hops'
      simpa using h
    | rparen =>
      subst hstarts
      obtain ⟨tree, htree⟩ := hbegins
      cases hopens with
      | none => cases hdepth
      | group outer begins =>
        have h := ih outer (begins.append_factor (.group htree)) hplaced hdepth hops'
        simpa using h

/-- Well placed tokens are a sentence if their parentheses pair up. -/
theorem exists_sentence_of_wellPlaced {tokens : List Token} (hplaced : WellPlaced true tokens)
    (hbalanced : Token.Balanced tokens) (hops : Known tokens) :
    ∃ tree, Sentence .expression tokens tree :=
  exists_sentence_append .none begins_nil hplaced hbalanced hops

end Reckon
