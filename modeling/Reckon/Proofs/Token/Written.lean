import Reckon.Proofs.Token.Placement
import Reckon.Proofs.Token.Scan

/-!
# Reading written forms

A token is legible at a place if its text, written there, is read as that token: a literal with a
sign only where an operand is expected, and the minus operator only where none is. Blanks between
tokens matter only to keep two literals apart. Main statement: a written form of well placed and
legible tokens is read as these tokens, `read_of_written`.
-/

namespace Reckon

theorem not_isLiteralChar_of_isBlank {c : Char} (h : Text.isBlank c = true) :
    isLiteralChar c = false := by
  by_contra hc
  rw [Bool.not_eq_false, isLiteralChar, Bool.or_eq_true, beq_iff_eq] at hc
  rcases hc with hc | rfl
  · simp only [Char.isDigit, Bool.and_eq_true, decide_eq_true_eq, ge_iff_le,
      UInt32.le_iff_toNat_le] at hc
    have h₁ : 48 ≤ c.toNat := hc.1
    have h₂ : c.toNat ≤ 57 := hc.2
    simp only [Text.isBlank, Bool.or_eq_true, Bool.and_eq_true, decide_eq_true_eq,
      beq_iff_eq] at h
    omega
  · exact absurd h (by decide)

theorem not_isBlank_of_isSymbolChar {c : Char} (h : isSymbolChar c = true) :
    Text.isBlank c = false :=
  isSymbolChar_cases h rfl rfl rfl rfl rfl rfl

theorem not_isLiteralChar_of_isSymbolChar {c : Char} (h : isSymbolChar c = true) :
    isLiteralChar c = false :=
  isSymbolChar_cases h rfl rfl rfl rfl rfl rfl

/-- The text of a token, where an operand is expected or is not, is read as that token. -/
def Token.Legible (expected : Bool) : Token → Prop
  | num text => ∃ sign digits : List Char, text.toList = sign ++ digits ∧ sign ++ digits ≠ [] ∧
      (sign = [] ∨ sign = ['-'] ∧ expected = true) ∧ ∀ c ∈ digits, isLiteralChar c = true
  | op symbol => ∃ kind : BinOp, symbol = kind.symbol ∧ (kind = .sub → expected = false)
  | lparen | rparen => True

namespace Scan

variable {scan : Scan} {c : Char}

theorem step_of_isLiteralChar (h : isLiteralChar c = true) :
    scan.step c = .ok { scan with pending := scan.pending ++ [c] } := by
  rw [step, if_pos (by rw [h, Bool.true_or])]

/-- A minus sign begins a literal where an operand is expected. -/
theorem step_sign (h : expectsOperandAfter scan.tokens = true) :
    scan.step '-' = .ok { scan with pending := scan.pending ++ ['-'] } := by
  rw [step, if_pos (by simp [h])]

theorem step_of_isSymbolChar (h : isSymbolChar c = true)
    (hc : c = '-' → expectsOperandAfter scan.tokens = false) :
    scan.step c = .ok ⟨[], symbolToken c :: scan.tokens⟩ := by
  have hlit : ¬ (isLiteralChar c || (c == '-' && expectsOperandAfter scan.tokens)) = true := by
    rw [not_isLiteralChar_of_isSymbolChar h, Bool.false_or, Bool.and_eq_true, beq_iff_eq]
    rintro ⟨hm, he⟩
    rw [hc hm] at he
    exact absurd he (by decide)
  rw [step, if_neg hlit, if_pos h]

theorem step_of_isBlank (h : Text.isBlank c = true) : scan.step c = .ok ⟨[], scan.tokens⟩ := by
  have hlit : ¬ (isLiteralChar c || (c == '-' && expectsOperandAfter scan.tokens)) = true := by
    rw [not_isLiteralChar_of_isBlank h, Bool.false_or, Bool.and_eq_true, beq_iff_eq]
    rintro ⟨rfl, -⟩
    exact absurd h (by decide)
  have hsym : ¬ isSymbolChar c = true := by
    intro hs
    rw [not_isBlank_of_isSymbolChar hs] at h
    exact absurd h (by decide)
  rw [step, if_neg hlit, if_neg hsym, if_pos h]

/-- A step adds the character to the literal, or ends the literal at a symbol or at a blank. -/
theorem step_cases {scan' : Scan} (h : scan.step c = .ok scan') :
    ((isLiteralChar c = true ∨ c = '-' ∧ expectsOperandAfter scan.tokens = true) ∧
        scan' = ⟨scan.pending ++ [c], scan.ended⟩) ∨
      (isSymbolChar c = true ∧ (c = '-' → expectsOperandAfter scan.tokens = false) ∧
        scan' = ⟨[], symbolToken c :: scan.tokens⟩) ∨
      (Text.isBlank c = true ∧ scan' = ⟨[], scan.tokens⟩) := by
  unfold step at h
  split_ifs at h with hlit hsym hblank
  · left
    cases h
    rw [Bool.or_eq_true, Bool.and_eq_true, beq_iff_eq] at hlit
    exact ⟨hlit, rfl⟩
  · right; left
    cases h
    refine ⟨hsym, fun hc => ?_, rfl⟩
    subst hc
    rw [Bool.or_eq_true, not_or, Bool.and_eq_true, not_and] at hlit
    simpa using hlit.2
  · right; right
    cases h
    exact ⟨hblank, rfl⟩

theorem foldlM_literalChars {cs : List Char} (h : ∀ c ∈ cs, isLiteralChar c = true) :
    cs.foldlM step scan = .ok { scan with pending := scan.pending ++ cs } := by
  induction cs generalizing scan with
  | nil =>
    rw [List.append_nil]
    rfl
  | cons c cs ih =>
    rw [List.foldlM_cons, step_of_isLiteralChar (h c List.mem_cons_self), Run.ok_bind,
      ih fun d hd => h d (List.mem_cons_of_mem _ hd), List.append_assoc]
    rfl

theorem foldlM_symbolChar (c : Char) (h : isSymbolChar c = true)
    (hc : c = '-' → expectsOperandAfter scan.tokens = false) :
    [c].foldlM step scan = .ok ⟨[], symbolToken c :: scan.tokens⟩ := by
  rw [List.foldlM_cons, step_of_isSymbolChar h hc]
  rfl

/-- Blanks end a pending literal and do nothing else. -/
theorem foldlM_blanks {gap : List Char} (h : ∀ c ∈ gap, Text.isBlank c = true) :
    gap.foldlM step scan = .ok (if gap = [] then scan else ⟨[], scan.tokens⟩) := by
  induction gap generalizing scan with
  | nil => rfl
  | cons c gap ih =>
    rw [List.foldlM_cons, step_of_isBlank (h c List.mem_cons_self), Run.ok_bind,
      ih fun d hd => h d (List.mem_cons_of_mem _ hd)]
    simp

/-- A legible token is read as itself. In front of a literal, the scan must not be inside of another
one. -/
theorem foldlM_token {token : Token} (h : token.Legible (expectsOperandAfter scan.tokens))
    (hsep : token.isNum = true → scan.pending = []) :
    ∃ scan', token.text.toList.foldlM step scan = .ok scan' ∧
      scan'.tokens = token :: scan.tokens := by
  cases token with
  | num text =>
    obtain ⟨sign, digits, ht, hne, hsign, hdigits⟩ := h
    have hp : scan.pending = [] := hsep rfl
    have hs : sign.foldlM step scan = .ok { scan with pending := scan.pending ++ sign } := by
      rcases hsign with rfl | ⟨rfl, he⟩
      · rw [List.append_nil]
        rfl
      · rw [List.foldlM_cons, step_sign he, Run.ok_bind]
        rfl
    refine ⟨⟨scan.pending ++ sign ++ digits, scan.ended⟩, ?_, ?_⟩
    · rw [Token.text, ht, List.foldlM_append, hs, Run.ok_bind, foldlM_literalChars hdigits]
    · rw [hp, List.nil_append, tokens_of_pending_ne_nil hne, ← ht, String.ofList_toList, tokens,
        if_pos hp]
  | op symbol =>
    obtain ⟨kind, rfl, hk⟩ := h
    cases kind with
    | add => exact ⟨_, foldlM_symbolChar '+' rfl (by simp), rfl⟩
    | sub => exact ⟨_, foldlM_symbolChar '-' rfl fun _ => hk rfl, rfl⟩
    | mul => exact ⟨_, foldlM_symbolChar '*' rfl (by simp), rfl⟩
    | div => exact ⟨_, foldlM_symbolChar '/' rfl (by simp), rfl⟩
  | lparen => exact ⟨_, foldlM_symbolChar '(' rfl (by simp), rfl⟩
  | rparen => exact ⟨_, foldlM_symbolChar ')' rfl (by simp), rfl⟩

theorem pending_eq_nil (h : expectsOperandAfter scan.tokens = true) : scan.pending = [] := by
  by_contra hne
  rw [tokens_of_pending_ne_nil hne] at h
  exact Bool.false_ne_true h

theorem tokens_after_blanks (scan : Scan) (gap : List Char) :
    (if gap = [] then scan else ⟨[], scan.tokens⟩ : Scan).tokens = scan.tokens := by
  split_ifs <;> rfl

theorem foldlM_written {tokens : List Token} {cs : List Char} (h : Written tokens cs)
    (hp : Token.WellPlaced (expectsOperandAfter scan.tokens) tokens)
    (hl : ∀ token ∈ tokens, token.Legible token.startsOperand) :
    ∃ scan', cs.foldlM step scan = .ok scan' ∧ scan'.tokens = tokens.reverse ++ scan.tokens := by
  induction h generalizing scan with
  | blanks blank => exact ⟨_, foldlM_blanks blank, tokens_after_blanks _ _⟩
  | @token token tokens gap cs blank rest ih =>
    set between : Scan := if gap = [] then scan else ⟨[], scan.tokens⟩ with hbetween
    have htokens : between.tokens = scan.tokens := tokens_after_blanks scan gap
    obtain ⟨hstart, hrest⟩ := hp
    have hlegible : token.Legible (expectsOperandAfter between.tokens) := by
      rw [htokens, ← hstart]
      exact hl token List.mem_cons_self
    have hsep : token.isNum = true → between.pending = [] := by
      intro hnum
      apply pending_eq_nil
      rw [htokens, ← hstart]
      cases token <;> simp_all [Token.isNum, Token.startsOperand]
    obtain ⟨after, hafter, hat⟩ := foldlM_token hlegible hsep
    have hexpects : expectsOperandAfter after.tokens = !token.endsOperand := by
      rw [hat]
      cases token <;> rfl
    obtain ⟨last, hlast, hlt⟩ := ih (by rw [hexpects]; exact hrest)
      fun t ht => hl t (List.mem_cons_of_mem _ ht)
    refine ⟨last, ?_, ?_⟩
    · rw [List.foldlM_append, List.foldlM_append, foldlM_blanks blank, Run.ok_bind, ← hbetween,
        hafter, Run.ok_bind, hlast]
    · rw [hlt, hat, htokens, List.reverse_cons, List.append_assoc]
      rfl

end Scan

/-- A written form of well placed and legible tokens is read as these tokens. -/
theorem read_of_written {tokens : List Token} {cs : List Char} (h : Written tokens cs)
    (hp : Token.WellPlaced true tokens)
    (hl : ∀ token ∈ tokens, token.Legible token.startsOperand) :
    Scan.read cs = .ok tokens := by
  have hp' : Token.WellPlaced (expectsOperandAfter Scan.initial.tokens) tokens := hp
  obtain ⟨scan, hscan, ht⟩ := Scan.foldlM_written h hp' hl
  rw [Scan.read, hscan, Run.ok_bind, ht, Scan.tokens_initial, List.append_nil, List.reverse_reverse]
  rfl

theorem IsLiteralText.legible {text : String} (h : IsLiteralText text) :
    (Token.num text).Legible true := by
  obtain ⟨sign, whole, fraction, point, ht, hsign, hpoint, hne, hdigits⟩ := h
  have hchar : ∀ c ∈ whole ++ fraction, isLiteralChar c = true := by
    intro c hc
    rw [isLiteralChar, hdigits c hc, Bool.true_or]
  refine ⟨sign, whole ++ point ++ fraction, by rw [ht]; simp, ?_, ?_, ?_⟩
  · intro hnil
    apply hne
    simp only [List.append_eq_nil_iff] at hnil ⊢
    exact ⟨hnil.2.1.1, hnil.2.2⟩
  · rcases hsign with rfl | rfl
    · exact .inl rfl
    · exact .inr ⟨rfl, rfl⟩
  · intro c hc
    rw [List.mem_append, List.mem_append] at hc
    rcases hc with (hc | hc) | hc
    · exact hchar c (List.mem_append_left _ hc)
    · rcases hpoint with rfl | ⟨rfl, -⟩
      · rw [List.mem_singleton.mp hc]
        rfl
      · simp at hc
    · exact hchar c (List.mem_append_right _ hc)

/-- Every written form of a sentence with decimal literals is read as its tokens. -/
theorem Sentence.read_of_written {category : Category} {tokens : List Token} {tree : Expr}
    (h : Sentence category tokens tree) (hl : ∀ text, .num text ∈ tokens → IsLiteralText text)
    {cs : List Char} (hw : Written tokens cs) : Scan.read cs = .ok tokens := by
  apply Reckon.read_of_written hw h.wellPlaced
  intro token ht
  cases token with
  | num text => exact (hl text ht).legible
  | op symbol =>
    obtain ⟨op, rfl⟩ := h.exists_op_of_mem ht
    exact ⟨op, rfl, fun _ => rfl⟩
  | lparen | rparen => trivial

end Reckon
