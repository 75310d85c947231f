import Reckon.Proofs.Token.Image

/-!
# Reading texts one after the other

A text is read from left to right and nothing is looked at ahead of its turn, so a text in front of
another one matters to it only through the state in which it leaves the reader. Blanks between the
two end a pending literal, and what is left of the state is the tokens. Of these the latest matters,
and only to a minus at the start of the second text, which is an operator behind an operand. Main
statement: `tokenize_concatenation`.
-/

namespace Reckon

/-- The first character that is not blank. -/
def firstVisible? (cs : List Char) : Option Char :=
  cs.find? fun c => !Text.isBlank c

namespace Scan

/-- All tokens after further characters. -/
def readFrom (scan : Scan) (cs : List Char) : Except EvalError (List Token) := do
  let scan ← cs.foldlM step scan
  return scan.tokens.reverse

variable {scan : Scan} {c : Char} {cs cs' gap : List Char} {before : List Token}

theorem readFrom_cons (scan : Scan) (c : Char) (cs : List Char) :
    scan.readFrom (c :: cs) = scan.step c >>= fun scan' => scan'.readFrom cs := by
  rw [readFrom, List.foldlM_cons, bind_assoc]
  rfl

theorem readFrom_append (scan : Scan) (cs cs' : List Char) :
    scan.readFrom (cs ++ cs') = cs.foldlM step scan >>= fun scan' => scan'.readFrom cs' := by
  rw [readFrom, List.foldlM_append, bind_assoc]
  rfl

theorem readFrom_of_step {scan' : Scan} (h : scan.step c = .ok scan') :
    scan.readFrom (c :: cs) = scan'.readFrom cs := by
  rw [readFrom_cons, h]
  rfl

/-- The state behind the tokens, with no literal pending. -/
theorem behind_initial_tokens (before : List Token) : (initial.behind before).tokens = before := by
  rw [tokens_behind]
  rfl

/-- Blanks leave nothing of a state but its tokens. -/
theorem readFrom_blanks (hgap : ∀ c ∈ gap, Text.isBlank c = true) (hne : gap ≠ []) :
    scan.readFrom (gap ++ cs) = (initial.behind scan.tokens).readFrom cs := by
  rw [readFrom_append, foldlM_blanks hgap, if_neg hne]
  rfl

theorem readFrom_behind_blanks (hgap : ∀ c ∈ gap, Text.isBlank c = true) :
    (initial.behind before).readFrom (gap ++ cs) = (initial.behind before).readFrom cs := by
  by_cases hne : gap = []
  · rw [hne, List.nil_append]
  · rw [readFrom_blanks hgap hne, behind_initial_tokens]

/-- Tokens stay in front of those that follow, which do not depend on them if an operand is expected
or if the scan has tokens of its own. -/
theorem readFrom_behind (h : expectsOperandAfter before = true ∨ scan.tokens ≠ [])
    (cs : List Char) :
    (scan.behind before).readFrom cs = (scan.readFrom cs).map (before.reverse ++ ·) := by
  rw [readFrom, readFrom, foldlM_behind h]
  cases cs.foldlM step scan with
  | error e => rfl
  | ok scan' =>
    show Except.ok (scan'.behind before).tokens.reverse
      = Except.ok (before.reverse ++ scan'.tokens.reverse)
    rw [tokens_behind, List.reverse_append]

/-- Behind any tokens, a text is read as by itself if it does not begin with a minus. -/
theorem readFrom_behind_of_not_minus (h : firstVisible? cs ≠ some '-') :
    (initial.behind before).readFrom cs = (read cs).map (before.reverse ++ ·) := by
  induction cs with
  | nil =>
    show Except.ok (initial.behind before).tokens.reverse = Except.ok (before.reverse ++ [])
    rw [behind_initial_tokens, List.append_nil]
  | cons c cs ih =>
    show _ = (initial.readFrom (c :: cs)).map _
    by_cases hblank : Text.isBlank c = true
    · have hrest : firstVisible? cs ≠ some '-' := by simpa [firstVisible?, hblank] using h
      have hbefore : (initial.behind before).step c = .ok (initial.behind before) := by
        rw [step_of_isBlank hblank, behind_initial_tokens]
        rfl
      rw [readFrom_of_step hbefore, readFrom_of_step (step_of_isBlank hblank)]
      exact ih hrest
    · have hminus : c ≠ '-' := by
        rintro rfl
        exact h rfl
      rw [readFrom_cons, readFrom_cons, step_behind fun hc => absurd hc hminus]
      cases hs : initial.step c with
      | error e => rfl
      | ok scan =>
        -- the character has made a token, which is the latest from now on
        have hne : scan.tokens ≠ [] := by
          obtain ⟨-, rfl⟩ | ⟨-, -, rfl⟩ | ⟨hc, -⟩ := step_cases hs
          · simp [tokens, initial]
          · simp
          · exact absurd hc hblank
        exact readFrom_behind (.inr hne) cs

/-- Behind an operand, a minus is the operator, and what follows is read as by itself. -/
theorem readFrom_behind_of_minus (h : expectsOperandAfter before = false)
    (hgap : ∀ c ∈ gap, Text.isBlank c = true) (cs : List Char) :
    (initial.behind before).readFrom (gap ++ '-' :: cs)
      = (read cs).map (before.reverse ++ .op "-" :: ·) := by
  have hminus : (initial.behind before).step '-' = .ok (initial.behind (.op "-" :: before)) := by
    rw [step_of_isSymbolChar rfl fun _ => by rwa [behind_initial_tokens], behind_initial_tokens]
    rfl
  rw [readFrom_behind_blanks hgap, readFrom_of_step hminus, readFrom_behind (.inl rfl)]
  show (read cs).map _ = _
  simp

/-- The tokens of a text alone are all that blanks let through to the next one. -/
theorem read_append_blanks (hgap : ∀ c ∈ gap, Text.isBlank c = true) (hne : gap ≠ []) :
    read (cs ++ gap ++ cs')
      = cs.foldlM step initial >>= fun scan => (initial.behind scan.tokens).readFrom cs' := by
  show initial.readFrom _ = _
  rw [List.append_assoc, readFrom_append]
  simp only [readFrom_blanks hgap hne]

/-- The tokens of a text that is in front of another one, the latest first. -/
theorem exists_foldlM_of_read {tokens : List Token} (h : read cs = .ok tokens) :
    ∃ scan, cs.foldlM step initial = .ok scan ∧ scan.tokens = tokens.reverse := by
  obtain ⟨scan, hscan, ht⟩ := read_eq_ok_iff.mp h
  exact ⟨scan, hscan, by rw [ht, tokens_initial, List.append_nil]⟩

/-- Where no literal is pending or none goes on, the tokens are all that counts of a state. -/
theorem readFrom_behind_tokens
    (h : scan.pending = [] ∨ ∀ c ∈ cs.head?, isLiteralChar c = false) :
    (initial.behind scan.tokens).readFrom cs = scan.readFrom cs := by
  by_cases hp : scan.pending = []
  · obtain ⟨pending, ended⟩ := scan
    obtain rfl : pending = [] := hp
    rfl
  · cases cs with
    | nil =>
      show Except.ok (initial.behind scan.tokens).tokens.reverse = Except.ok scan.tokens.reverse
      rw [behind_initial_tokens]
    | cons c cs =>
      have hliteral : isLiteralChar c = false := h.resolve_left hp c rfl
      -- a minus is the operator behind a literal, pending or not
      have hexpects : expectsOperandAfter scan.tokens = false := by
        rw [tokens_of_pending_ne_nil hp]
        rfl
      have hstep : (initial.behind scan.tokens).step c = scan.step c := by
        rw [step, step, behind_initial_tokens, hliteral, hexpects, Bool.and_false, Bool.false_or,
          if_neg Bool.false_ne_true, if_neg Bool.false_ne_true]
      rw [readFrom_cons, readFrom_cons, hstep]

/-- Nothing behind an error changes it. -/
theorem read_append_of_error {e : EvalError} (h : read cs = .error e) (cs' : List Char) :
    read (cs ++ cs') = .error e := by
  show initial.readFrom _ = _
  rw [readFrom_append]
  cases hscan : cs.foldlM step initial with
  | error e' =>
    rw [read, hscan] at h
    exact h
  | ok scan =>
    rw [read, hscan] at h
    cases h

end Scan

/-- Two texts with blanks between them have the tokens of the first and then those of the second, or
the error of the second. Only a minus at the start of the second one can be read otherwise: behind
an operand it is the operator. An error of the first text is final. -/
theorem tokenize_concatenation (a : String) :
    (∀ tokens, (tokenize a).result = .ok tokens → ∀ w b, Text.IsBlank w → w ≠ "" →
      ((∀ last ∈ tokens.getLast?, (last.isOp || last.isLParen) = true) ∨
          firstVisible? b.toList ≠ some '-' →
        (tokenize (a ++ w ++ b)).result = (tokenize b).result.map (tokens ++ ·)) ∧
      (¬ (∀ last ∈ tokens.getLast?, (last.isOp || last.isLParen) = true) →
        firstVisible? b.toList = some '-' →
          ∃ w' b', b = w' ++ "-" ++ b' ∧ Text.IsBlank w' ∧
            (tokenize (a ++ w ++ b)).result
              = (tokenize b').result.map (tokens ++ .op "-" :: ·))) ∧
      ∀ e, (tokenize a).result = .error e → ∀ c, (tokenize (a ++ c)).result = .error e := by
  simp only [result_tokenize, String.toList_append]
  constructor
  · intro tokens ha w b hw hne
    obtain ⟨scan, hscan, ht⟩ := Scan.exists_foldlM_of_read ha
    have hgap : w.toList ≠ [] := fun hnil => hne (String.toList_eq_nil_iff.mp hnil)
    rw [Scan.read_append_blanks hw hgap, hscan, Run.ok_bind, ht]
    constructor
    · rintro (hexpected | hvisible)
      · have he := Token.expectsOperandAfter_reverse_eq_true.mpr hexpected
        rw [Scan.readFrom_behind (.inl he), List.reverse_reverse]
        rfl
      · rw [Scan.readFrom_behind_of_not_minus hvisible, List.reverse_reverse]
    · intro hoperand hminus
      obtain ⟨-, front, back, hb, hfront⟩ := List.find?_eq_some_iff_append.mp hminus
      have he : expectsOperandAfter tokens.reverse = false := by
        rw [← Bool.not_eq_true, Token.expectsOperandAfter_reverse_eq_true]
        exact hoperand
      have hblank : ∀ c ∈ front, Text.isBlank c = true := by simpa using hfront
      refine ⟨String.ofList front, String.ofList back, ?_, ?_, ?_⟩
      · rw [← String.toList_inj, hb]
        simp
      · rw [Text.IsBlank, String.toList_ofList]
        exact hblank
      · rw [hb, Scan.readFrom_behind_of_minus he hblank, List.reverse_reverse,
          String.toList_ofList]
  · intro e ha c
    exact Scan.read_append_of_error ha c.toList

theorem minus_behind_operand_and_operator :
    (∃ w' b', "\t-3" = w' ++ "-" ++ b' ∧ Text.IsBlank w' ∧
      (tokenize ("2" ++ " " ++ "\t-3")).result
        = (tokenize b').result.map ([.num "2"] ++ .op "-" :: ·)) ∧
      (tokenize ("2*" ++ " " ++ "-3")).result = .ok [.num "2", .op "*", .num "-3"] ∧
      (tokenize ("2%" ++ "-3")).result = .error (.invalidCharacter '%') := by
  have hblank : Text.IsBlank " " := List.all_eq_true.mp rfl
  have hoperand : (tokenize "2").result = .ok [.num "2"] := rfl
  have hoperator : (tokenize "2*").result = .ok [.num "2", .op "*"] := rfl
  have hsigned : (tokenize "-3").result = .ok [.num "-3"] := rfl
  obtain ⟨-, hminus⟩ :=
    (tokenize_concatenation "2").1 _ hoperand " " "\t-3" hblank (by decide)
  obtain ⟨hsign, -⟩ := (tokenize_concatenation "2*").1 _ hoperator " " "-3" hblank (by decide)
  refine ⟨hminus (by decide) rfl, ?_, (tokenize_concatenation "2%").2 _ rfl "-3"⟩
  rw [hsign (.inl (by decide)), hsigned]
  rfl

end Reckon
