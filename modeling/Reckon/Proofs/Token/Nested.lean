import Mathlib.Data.List.Induction
import Reckon.Proofs.Rpn.Conservation

/-!
# Structure of balanced tokens

Tokens whose parentheses pair up are literals, operators and groups in any order, and so are the
tokens inside of each group. The tokens are taken from left to right, and what has been taken is cut
at the left parentheses that are open. Main statement: `Balanced.nested`.
-/

namespace Reckon.Token

/-! ## Depth -/

theorem foldlM_openAfter_append {before after : List Token} {depth last : Nat} :
    (before ++ after).foldlM openAfter depth = some last ↔
      ∃ between, before.foldlM openAfter depth = some between ∧
        after.foldlM openAfter between = some last := by
  rw [List.foldlM_append, Option.bind_eq_bind, Option.bind_eq_some_iff]

theorem foldlM_openAfter_append_singleton {tokens : List Token} {token : Token}
    {depth last : Nat} :
    (tokens ++ [token]).foldlM openAfter depth = some last ↔
      ∃ between, tokens.foldlM openAfter depth = some between ∧
        openAfter between token = some last := by
  simp only [foldlM_openAfter_append, List.foldlM_cons, List.foldlM_nil, bind_pure]

/-- More groups that are open from the beginning stay open. -/
theorem foldlM_openAfter_add {tokens : List Token} {depth last : Nat}
    (h : tokens.foldlM openAfter depth = some last) (more : Nat) :
    tokens.foldlM openAfter (depth + more) = some (last + more) := by
  induction tokens generalizing depth with
  | nil =>
    cases h
    rfl
  | cons token tokens ih =>
    rw [List.foldlM_cons] at h ⊢
    cases token with
    | num text => exact ih h
    | op symbol => exact ih h
    | lparen =>
      have hinner := ih h
      rw [Nat.add_right_comm] at hinner
      exact hinner
    | rparen =>
      by_cases hd : depth = 0
      · rw [openAfter, if_pos hd] at h
        cases h
      · have hmore : ¬ depth + more = 0 := by omega
        rw [openAfter, if_neg hd] at h
        rw [openAfter, if_neg hmore, show depth + more - 1 = depth - 1 + more by omega]
        exact ih h

variable {tokens tokens' inner : List Token} {depth : Nat}

theorem Balanced.foldlM (h : Balanced tokens) (depth : Nat) :
    tokens.foldlM openAfter depth = some depth := by
  have hmore := foldlM_openAfter_add h depth
  rwa [Nat.zero_add] at hmore

/-- Balanced tokens do not change the depth of what follows. -/
theorem Balanced.append_iff (h : Balanced tokens) :
    Balanced (tokens ++ tokens') ↔ Balanced tokens' := by
  rw [Balanced, List.foldlM_append, h]
  exact Iff.rfl

theorem Balanced.group (h : Balanced inner) : Balanced (.lparen :: (inner ++ [.rparen])) := by
  have hinner : inner.foldlM openAfter 1 = some 1 := h.foldlM 1
  show (inner ++ [Token.rparen]).foldlM openAfter 1 = some 0
  rw [List.foldlM_append, hinner]
  rfl

/-! ## Nesting -/

/-- Tokens that are made up of literals, operators and groups. -/
inductive Nested : List Token → Prop
  /-- No tokens at all. -/
  | nil : Nested []
  /-- A literal follows. -/
  | num {tokens : List Token} (text : String) (before : Nested tokens) :
      Nested (tokens ++ [.num text])
  /-- An operator follows. -/
  | op {tokens : List Token} (symbol : String) (before : Nested tokens) :
      Nested (tokens ++ [.op symbol])
  /-- A group follows. -/
  | group {tokens inner : List Token} (before : Nested tokens) (inside : Nested inner) :
      Nested (tokens ++ .lparen :: (inner ++ [.rparen]))

theorem Nested.balanced (h : Nested tokens) : Balanced tokens := by
  induction h with
  | nil => rfl
  | num text _ ih => exact ih.append_iff.mpr rfl
  | op symbol _ ih => exact ih.append_iff.mpr rfl
  | group _ _ ih ihinner => exact ih.append_iff.mpr ihinner.group

/-- Tokens that leave so many groups open: what stands in front of each of the groups, and what has
been taken of the latest, is nested. -/
inductive Opened : Nat → List Token → Prop
  /-- No group is open. -/
  | none {tokens : List Token} (whole : Nested tokens) : Opened 0 tokens
  /-- A group is open behind the others. -/
  | group {depth : Nat} {tokens inner : List Token} (outer : Opened depth tokens)
      (inside : Nested inner) : Opened (depth + 1) (tokens ++ .lparen :: inner)

/-- What can follow nested tokens can follow in the latest group. -/
theorem Opened.append {piece : List Token} (h : Opened depth tokens)
    (hpiece : ∀ {inner : List Token}, Nested inner → Nested (inner ++ piece)) :
    Opened depth (tokens ++ piece) := by
  cases h with
  | none whole => exact .none (hpiece whole)
  | group outer inside =>
    rw [List.append_assoc, List.cons_append]
    exact .group outer (hpiece inside)

theorem Opened.step {token : Token} {depth' : Nat} (h : Opened depth tokens)
    (hs : openAfter depth token = some depth') : Opened depth' (tokens ++ [token]) := by
  cases token with
  | num text =>
    cases hs
    exact h.append fun inside => inside.num text
  | op symbol =>
    cases hs
    exact h.append fun inside => inside.op symbol
  | lparen =>
    cases hs
    exact h.group .nil
  | rparen =>
    cases h with
    | none => cases hs
    | @group depth tokens inner outer inside =>
      cases hs
      rw [List.append_assoc, List.cons_append]
      exact outer.append fun before => before.group inside

theorem opened_of_foldlM (h : tokens.foldlM openAfter 0 = some depth) : Opened depth tokens := by
  induction tokens using List.reverseRecOn generalizing depth with
  | nil =>
    cases h
    exact .none .nil
  | append_singleton tokens token ih =>
    obtain ⟨between, hbetween, hstep⟩ := foldlM_openAfter_append_singleton.mp h
    exact (ih hbetween).step hstep

/-- Tokens whose parentheses pair up are nested. -/
theorem Balanced.nested (h : Balanced tokens) : Nested tokens := by
  have hopened := opened_of_foldlM h
  cases hopened with
  | none whole => exact whole

end Reckon.Token
