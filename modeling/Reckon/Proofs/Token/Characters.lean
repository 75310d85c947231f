import Reckon.Proofs.Rpn.Conservation
import Reckon.Proofs.Token.Image

/-!
# What the characters tell about the tokens

Two things about the tokens of a text can be read off its characters. There are tokens exactly if
each character can stand in an expression, and the first that cannot is the one that is reported.
The parentheses among the tokens are those among the characters, in the same order, so that they
pair up exactly if the characters do, `balanced_iff_of_read`.
-/

namespace Reckon

open Token (openAfter ofParen?)

/-- Whether a character can stand in an expression: a blank, a digit, a point, an operator or a
parenthesis. -/
def isExpressionChar (c : Char) : Bool :=
  Text.isBlank c || c.isDigit || ['.', '+', '-', '*', '/', '(', ')'].contains c

/-- The first character that cannot stand in an expression. -/
def firstForeign? (cs : List Char) : Option Char :=
  cs.find? fun c => !isExpressionChar c

/-- The parentheses among the characters pair up: no part at the start closes more than it opens,
and all that is opened is closed. -/
def ParensPair (cs : List Char) : Prop :=
  (∀ before, before <+: cs → before.count ')' ≤ before.count '(') ∧ cs.count '(' = cs.count ')'

/-! ## Foreign characters -/

theorem isExpressionChar_iff {c : Char} : isExpressionChar c = true ↔
    isLiteralChar c = true ∨ isSymbolChar c = true ∨ Text.isBlank c = true := by
  simp only [isExpressionChar, isLiteralChar, isSymbolChar, List.contains_cons, List.contains_nil,
    Bool.or_eq_true, beq_iff_eq, Bool.false_eq_true, or_false]
  tauto

namespace Scan

variable {scan : Scan} {c : Char} {cs : List Char}

theorem step_of_foreign (h : isExpressionChar c = false) :
    scan.step c = .error (.invalidCharacter c) := by
  have hnot : ¬ (isLiteralChar c = true ∨ isSymbolChar c = true ∨ Text.isBlank c = true) := by
    rw [← isExpressionChar_iff, h]
    exact Bool.false_ne_true
  rw [not_or, not_or] at hnot
  obtain ⟨hlit, hsym, hblank⟩ := hnot
  have hminus : c ≠ '-' := by
    rintro rfl
    exact hsym rfl
  rw [step, if_neg (by simp [hlit, hminus]), if_neg hsym, if_neg hblank]

theorem exists_step (h : isExpressionChar c = true) : ∃ scan', scan.step c = .ok scan' := by
  unfold step
  split_ifs with hlit hsym hblank
  · exact ⟨_, rfl⟩
  · exact ⟨_, rfl⟩
  · exact ⟨_, rfl⟩
  · rw [Bool.or_eq_true, not_or] at hlit
    rcases isExpressionChar_iff.mp h with h | h | h
    · exact absurd h hlit.1
    · exact absurd h hsym
    · exact absurd h hblank

theorem foldlM_of_foreign (h : firstForeign? cs = some c) :
    cs.foldlM step scan = .error (.invalidCharacter c) := by
  induction cs generalizing scan with
  | nil => cases h
  | cons d cs ih =>
    rw [List.foldlM_cons]
    cases hd : isExpressionChar d with
    | false =>
      have hc : d = c := by simpa [firstForeign?, hd] using h
      rw [step_of_foreign hd, hc]
      rfl
    | true =>
      have hcs : firstForeign? cs = some c := by simpa [firstForeign?, hd] using h
      obtain ⟨scan', hscan⟩ : ∃ scan', scan.step d = .ok scan' := exists_step hd
      rw [hscan]
      exact ih hcs

theorem exists_foldlM (h : firstForeign? cs = none) : ∃ scan', cs.foldlM step scan = .ok scan' := by
  induction cs generalizing scan with
  | nil => exact ⟨scan, rfl⟩
  | cons d cs ih =>
    have hall : isExpressionChar d = true ∧ firstForeign? cs = none := by
      simpa [firstForeign?] using h
    obtain ⟨scan', hscan⟩ : ∃ scan', scan.step d = .ok scan' := exists_step hall.1
    rw [List.foldlM_cons, hscan]
    exact ih hall.2

theorem read_of_foreign (h : firstForeign? cs = some c) :
    read cs = .error (.invalidCharacter c) := by
  rw [read, foldlM_of_foreign h]
  rfl

theorem exists_read (h : firstForeign? cs = none) : ∃ tokens, read cs = .ok tokens := by
  obtain ⟨scan, hscan⟩ : ∃ scan, cs.foldlM step initial = .ok scan := exists_foldlM h
  exact ⟨scan.tokens.reverse, by rw [read, hscan]; rfl⟩

end Scan

/-! ## Parentheses -/

namespace Token

/-- Whether a token is a parenthesis. -/
def isParen : Token → Bool
  | lparen | rparen => true
  | _ => false

theorem ofParen?_of_isLiteralChar {c : Char} (h : isLiteralChar c = true) : ofParen? c = none := by
  unfold ofParen?
  split
  · exact absurd h (by decide)
  · exact absurd h (by decide)
  · rfl

theorem ofParen?_of_isBlank {c : Char} (h : Text.isBlank c = true) : ofParen? c = none := by
  unfold ofParen?
  split
  · exact absurd h (by decide)
  · exact absurd h (by decide)
  · rfl

theorem filter_isParen_symbolToken {c : Char} (h : isSymbolChar c = true) :
    [symbolToken c].filter isParen = (ofParen? c).toList :=
  isSymbolChar_cases h rfl rfl rfl rfl rfl rfl

end Token

theorem Scan.filter_isParen_tokens (scan : Scan) :
    scan.tokens.filter Token.isParen = scan.ended.filter Token.isParen := by
  by_cases h : scan.pending = []
  · rw [tokens, if_pos h]
  · rw [tokens_of_pending_ne_nil h]
    rfl

/-- A step adds the parenthesis that it takes in, and no other. -/
theorem Scan.filter_isParen_of_step {scan scan' : Scan} {c : Char} (h : scan.step c = .ok scan') :
    scan'.tokens.filter Token.isParen
      = (ofParen? c).toList ++ scan.tokens.filter Token.isParen := by
  obtain ⟨hc, rfl⟩ | ⟨hsym, -, rfl⟩ | ⟨hblank, rfl⟩ := step_cases h
  · have hnone : ofParen? c = none := by
      rcases hc with hc | ⟨rfl, -⟩
      · exact Token.ofParen?_of_isLiteralChar hc
      · rfl
    rw [filter_isParen_tokens, filter_isParen_tokens, hnone]
    rfl
  · rw [tokens_of_pending_eq_nil, ← Token.filter_isParen_symbolToken hsym, ← List.filter_append]
    rfl
  · rw [tokens_of_pending_eq_nil, Token.ofParen?_of_isBlank hblank]
    rfl

/-- Reading neither loses, adds nor reorders a parenthesis. -/
theorem filter_isParen_of_read {cs : List Char} {tokens : List Token}
    (h : Scan.read cs = .ok tokens) : tokens.filter Token.isParen = cs.filterMap ofParen? := by
  obtain ⟨scan, hscan, ht⟩ := Scan.read_eq_ok_iff.mp h
  rw [Scan.tokens_initial, List.append_nil] at ht
  have hstep : ∀ done (scan : Scan) c scan',
      scan.tokens.filter Token.isParen = (done.filterMap ofParen?).reverse →
      scan.step c = .ok scan' →
      scan'.tokens.filter Token.isParen = ((done ++ [c]).filterMap ofParen?).reverse := by
    intro done scan c scan' hi hs
    rw [Scan.filter_isParen_of_step hs, hi]
    cases hc : ofParen? c <;> simp [hc]
  have hparens := Run.ok_foldlM_induction (I := fun done scan =>
    scan.tokens.filter Token.isParen = (done.filterMap ofParen?).reverse) rfl hstep hscan
  rw [ht, List.filter_reverse] at hparens
  exact List.reverse_injective hparens

theorem foldlM_openAfter_filter (depth : Nat) (tokens : List Token) :
    (tokens.filter Token.isParen).foldlM openAfter depth = tokens.foldlM openAfter depth := by
  induction tokens generalizing depth with
  | nil => rfl
  | cons token tokens ih =>
    cases token with
    | num text => exact ih depth
    | op symbol => exact ih depth
    | lparen => exact ih (depth + 1)
    | rparen =>
      show (openAfter depth .rparen >>= _) = (openAfter depth .rparen >>= _)
      cases openAfter depth .rparen with
      | none => rfl
      | some next => exact ih next

theorem forall_prefix_cons {c : Char} {cs : List Char} {P : List Char → Prop} :
    (∀ before, before <+: c :: cs → P before) ↔
      P [] ∧ ∀ before, before <+: cs → P (c :: before) := by
  constructor
  · intro h
    exact ⟨h [] List.nil_prefix, fun before hb => h _ (List.cons_prefix_cons.mpr ⟨rfl, hb⟩)⟩
  · rintro ⟨hnil, hcons⟩ before hb
    rcases List.prefix_cons_iff.mp hb with rfl | ⟨rest, rfl, hr⟩
    · exact hnil
    · exact hcons rest hr

/-- The groups that are open after the characters, counted from those that are open before them. -/
theorem foldlM_openAfter_eq_some {cs : List Char} {depth last : Nat} :
    (cs.filterMap ofParen?).foldlM openAfter depth = some last ↔
      (∀ before, before <+: cs → before.count ')' ≤ depth + before.count '(') ∧
        last + cs.count ')' = depth + cs.count '(' := by
  induction cs generalizing depth with
  | nil => simp [eq_comm]
  | cons c cs ih =>
    rw [forall_prefix_cons]
    by_cases hl : c = '('
    · subst hl
      have hne : '(' ≠ ')' := by decide
      have hopen : (('(' :: cs).filterMap ofParen?).foldlM openAfter depth
          = (cs.filterMap ofParen?).foldlM openAfter (depth + 1) := rfl
      rw [hopen, ih]
      simp only [List.count_nil, List.count_cons_self, List.count_cons_of_ne hne]
      constructor
      · rintro ⟨hbefore, hlast⟩
        exact ⟨⟨by omega, fun before hb => by have := hbefore before hb; omega⟩, by omega⟩
      · rintro ⟨⟨-, hbefore⟩, hlast⟩
        exact ⟨fun before hb => by have := hbefore before hb; omega, by omega⟩
    by_cases hr : c = ')'
    · subst hr
      have hne : ')' ≠ '(' := by decide
      have hclose : ((')' :: cs).filterMap ofParen?).foldlM openAfter depth
          = openAfter depth .rparen >>= (cs.filterMap ofParen?).foldlM openAfter := rfl
      rw [hclose, openAfter]
      simp only [List.count_nil, List.count_cons_self, List.count_cons_of_ne hne]
      by_cases hd : depth = 0
      · rw [if_pos hd]
        constructor
        · intro h
          cases h
        · rintro ⟨⟨-, hbefore⟩, -⟩
          have := hbefore [] List.nil_prefix
          simp only [List.count_nil] at this
          omega
      · rw [if_neg hd, Option.bind_eq_bind, Option.bind_some, ih]
        constructor
        · rintro ⟨hbefore, hlast⟩
          exact ⟨⟨by omega, fun before hb => by have := hbefore before hb; omega⟩, by omega⟩
        · rintro ⟨⟨-, hbefore⟩, hlast⟩
          exact ⟨fun before hb => by have := hbefore before hb; omega, by omega⟩
    · have hnone : ofParen? c = none := by
        unfold ofParen?
        split
        · exact absurd rfl hl
        · exact absurd rfl hr
        · rfl
      rw [List.filterMap_cons_none hnone, ih]
      simp only [List.count_nil, List.count_cons_of_ne hl, List.count_cons_of_ne hr]
      simp

/-- The parentheses of the tokens pair up exactly if those of the characters do. -/
theorem balanced_iff_of_read {cs : List Char} {tokens : List Token}
    (h : Scan.read cs = .ok tokens) : Token.Balanced tokens ↔ ParensPair cs := by
  rw [Token.Balanced, ← foldlM_openAfter_filter, filter_isParen_of_read h,
    foldlM_openAfter_eq_some, ParensPair]
  simp only [Nat.zero_add, eq_comm]

end Reckon
