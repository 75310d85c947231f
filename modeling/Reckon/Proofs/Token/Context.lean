import Reckon.Proofs.Token.Written

/-!
# Reading in context

What a scan makes of a piece of a text depends on what stands in front of it only through one
question: whether an operand is expected there. Where one is, the piece is read as it is read by
itself, `Scan.reads_of_read`. Pieces that are read one after the other are put together with
`Scan.Reads.append`.
-/

namespace Reckon

/-- The latest token decides what is expected; where there is none, what stands before does. -/
theorem expectsOperandAfter_append {before tokens : List Token}
    (h : expectsOperandAfter before = true ∨ tokens ≠ []) :
    expectsOperandAfter (tokens ++ before) = expectsOperandAfter tokens := by
  cases tokens with
  | nil => exact h.resolve_right fun hne => hne rfl
  | cons token tokens => rfl

namespace Scan

/-- The scan as it is when other tokens have ended before its own. -/
def behind (scan : Scan) (before : List Token) : Scan :=
  ⟨scan.pending, scan.ended ++ before⟩

theorem tokens_behind (scan : Scan) (before : List Token) :
    (scan.behind before).tokens = scan.tokens ++ before := by
  by_cases h : scan.pending = []
  · simp [behind, tokens, h]
  · simp [behind, tokens, h]

/-- A step looks at the tokens before only to see whether a minus is a sign. -/
theorem step_behind {before : List Token} {scan : Scan} {c : Char}
    (h : c = '-' → expectsOperandAfter (scan.tokens ++ before) = expectsOperandAfter scan.tokens) :
    (scan.behind before).step c = (scan.step c).map (·.behind before) := by
  have hsign : (c == '-' && expectsOperandAfter (scan.behind before).tokens)
      = (c == '-' && expectsOperandAfter scan.tokens) := by
    by_cases hc : c = '-'
    · rw [tokens_behind, h hc]
    · rw [beq_false_of_ne hc, Bool.false_and, Bool.false_and]
  unfold step
  rw [hsign]
  split_ifs
  · rfl
  · rw [tokens_behind]
    rfl
  · rw [tokens_behind]
    rfl
  · rfl

/-- A scan that has a token keeps having one. -/
theorem tokens_ne_nil_of_step {scan scan' : Scan} {c : Char} (h : scan.tokens ≠ [])
    (hs : scan.step c = .ok scan') : scan'.tokens ≠ [] := by
  obtain ⟨-, rfl⟩ | ⟨-, -, rfl⟩ | ⟨-, rfl⟩ := step_cases hs
  · rw [tokens_of_pending_ne_nil (by simp)]
    exact List.cons_ne_nil _ _
  · exact List.cons_ne_nil _ _
  · exact h

theorem foldlM_behind {before : List Token} {scan : Scan}
    (h : expectsOperandAfter before = true ∨ scan.tokens ≠ []) (cs : List Char) :
    cs.foldlM step (scan.behind before) = (cs.foldlM step scan).map (·.behind before) := by
  induction cs generalizing scan with
  | nil => rfl
  | cons c cs ih =>
    rw [List.foldlM_cons, List.foldlM_cons, step_behind fun _ => expectsOperandAfter_append h]
    cases hs : scan.step c with
    | error e => rfl
    | ok scan' => exact ih (h.imp_right fun hne => tokens_ne_nil_of_step hne hs)

/-! ## Literals -/

theorem mem_tokens_of_mem_ended {scan : Scan} {token : Token} (h : token ∈ scan.ended) :
    token ∈ scan.tokens := by
  unfold tokens
  split_ifs
  · exact h
  · exact List.mem_cons_of_mem _ h

/-- A token that has ended stays. -/
theorem mem_ended_of_foldlM {scan scan' : Scan} {cs : List Char} {token : Token}
    (h : token ∈ scan.ended) (hscan : cs.foldlM step scan = .ok scan') : token ∈ scan'.ended := by
  have hstep : ∀ (_ : List Char) (s : Scan) c t, token ∈ s.ended → s.step c = .ok t →
      token ∈ t.ended := by
    intro _ s c t hs ht
    obtain ⟨-, rfl⟩ | ⟨-, -, rfl⟩ | ⟨-, rfl⟩ := step_cases ht
    · exact hs
    · exact List.mem_cons_of_mem _ (mem_tokens_of_mem_ended hs)
    · exact mem_tokens_of_mem_ended hs
  exact Run.ok_foldlM_induction (I := fun _ s => token ∈ s.ended) h hstep hscan

/-- A literal goes on as far as there are digits and points, and then it is a token. -/
theorem num_mem_of_foldlM {scan scan' : Scan} {cs : List Char} (hp : scan.pending ≠ [])
    (h : cs.foldlM step scan = .ok scan') :
    .num (String.ofList (scan.pending ++ cs.takeWhile isLiteralChar)) ∈ scan'.tokens := by
  induction cs generalizing scan with
  | nil =>
    cases h
    rw [List.takeWhile_nil, List.append_nil, tokens_of_pending_ne_nil hp]
    exact List.mem_cons_self
  | cons c cs ih =>
    rw [List.foldlM_cons] at h
    by_cases hc : isLiteralChar c = true
    · rw [step_of_isLiteralChar hc, Run.ok_bind] at h
      have hmem := ih (by simp) h
      rwa [List.append_assoc, List.singleton_append, ← List.takeWhile_cons_of_pos hc] at hmem
    · rw [List.takeWhile_cons_of_neg hc, List.append_nil]
      have htokens := tokens_of_pending_ne_nil hp
      have hliteral : .num (String.ofList scan.pending) ∈ scan.tokens := by
        rw [htokens]
        exact List.mem_cons_self
      cases hstep : scan.step c with
      | error e =>
        rw [hstep] at h
        cases h
      | ok next =>
        rw [hstep, Run.ok_bind] at h
        obtain ⟨hsign, -⟩ | ⟨-, -, rfl⟩ | ⟨-, rfl⟩ := step_cases hstep
        · -- no sign can stand behind a literal
          rw [htokens] at hsign
          rcases hsign with hlit | ⟨-, he⟩
          · exact absurd hlit hc
          · exact absurd he Bool.false_ne_true
        · exact mem_tokens_of_mem_ended
            (mem_ended_of_foldlM (List.mem_cons_of_mem _ hliteral) h)
        · exact mem_tokens_of_mem_ended (mem_ended_of_foldlM hliteral h)

/-! ## Pieces of a text -/

/-- Taken in after the scan, the characters are read as the tokens. -/
def Reads (scan : Scan) (cs : List Char) (tokens : List Token) : Prop :=
  ∃ scan', cs.foldlM step scan = .ok scan' ∧ scan'.tokens = tokens.reverse ++ scan.tokens

variable {scan : Scan} {cs cs' : List Char} {tokens tokens' : List Token}

theorem read_eq_ok_iff : read cs = .ok tokens ↔ initial.Reads cs tokens := by
  unfold read Reads
  cases hscan : cs.foldlM step initial with
  | error e =>
    constructor
    · intro h
      cases h
    · rintro ⟨scan', h, -⟩
      cases h
  | ok scan =>
    constructor
    · intro h
      have htokens : scan.tokens.reverse = tokens := Except.ok.inj h
      exact ⟨scan, rfl, by rw [← htokens, List.reverse_reverse, tokens_initial, List.append_nil]⟩
    · rintro ⟨scan', h, htokens⟩
      obtain rfl : scan = scan' := Except.ok.inj h
      rw [Run.ok_bind, htokens, tokens_initial, List.append_nil, List.reverse_reverse]
      rfl

theorem Reads.append (h : scan.Reads cs tokens)
    (h' : ∀ scan' : Scan, scan'.tokens = tokens.reverse ++ scan.tokens → scan'.Reads cs' tokens') :
    scan.Reads (cs ++ cs') (tokens ++ tokens') := by
  obtain ⟨scan', hscan, ht⟩ := h
  obtain ⟨scan'', hscan', ht'⟩ := h' scan' ht
  refine ⟨scan'', ?_, ?_⟩
  · rw [List.foldlM_append, hscan, Run.ok_bind, hscan']
  · rw [ht', ht, List.reverse_append, List.append_assoc]

theorem reads_blanks (h : ∀ c ∈ cs, Text.isBlank c = true) : scan.Reads cs [] :=
  ⟨_, foldlM_blanks h, tokens_after_blanks scan cs⟩

theorem reads_token {token : Token} (h : token.Legible (expectsOperandAfter scan.tokens))
    (hsep : token.isNum = true → scan.pending = []) : scan.Reads token.text.toList [token] :=
  foldlM_token h hsep

theorem reads_lparen (scan : Scan) : scan.Reads ['('] [.lparen] :=
  ⟨_, foldlM_symbolChar '(' rfl nofun, rfl⟩

theorem reads_rparen (scan : Scan) : scan.Reads [')'] [.rparen] :=
  ⟨_, foldlM_symbolChar ')' rfl nofun, rfl⟩

theorem reads_op (op : BinOp) (h : expectsOperandAfter scan.tokens = false) :
    scan.Reads op.symbol.toList [.op op.symbol] :=
  have hlegible : (Token.op op.symbol).Legible (expectsOperandAfter scan.tokens) :=
    ⟨op, rfl, fun _ => h⟩
  foldlM_token hlegible nofun

/-- Blanks keep a token apart from what stands in front of them. -/
theorem reads_spaced_token {gap : List Char} {token : Token}
    (hgap : ∀ c ∈ gap, Text.isBlank c = true) (hne : gap ≠ [])
    (h : token.Legible (expectsOperandAfter scan.tokens)) :
    scan.Reads (gap ++ token.text.toList) [token] := by
  have hafter : token.Legible (expectsOperandAfter (⟨[], scan.tokens⟩ : Scan).tokens) := h
  obtain ⟨scan', hscan, ht⟩ := foldlM_token hafter fun _ => rfl
  refine ⟨scan', ?_, ht⟩
  rw [List.foldlM_append, foldlM_blanks hgap, if_neg hne, Run.ok_bind, hscan]

/-- Where an operand is expected, characters are read as they are read by themselves. -/
theorem reads_of_read (h : read cs = .ok tokens) (he : expectsOperandAfter scan.tokens = true) :
    scan.Reads cs tokens := by
  obtain ⟨scan', hscan, ht⟩ := read_eq_ok_iff.mp h
  have hscan_eq : scan = initial.behind scan.tokens := by
    have hp := pending_eq_nil he
    obtain ⟨pending, ended⟩ := scan
    obtain rfl : pending = [] := hp
    rfl
  rw [tokens_initial, List.append_nil] at ht
  refine ⟨scan'.behind scan.tokens, ?_, by rw [tokens_behind, ht]⟩
  rw [hscan_eq, foldlM_behind (.inl he), hscan, ← hscan_eq]
  rfl

end Scan

end Reckon
