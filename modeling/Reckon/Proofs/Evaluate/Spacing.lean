import Reckon.Proofs.Evaluate.Accounting
import Reckon.Proofs.Token.Concatenation

/-!
# Blanks between two texts

Blanks between two texts end a literal that is pending at the end of the first one. This makes a
difference only if the second one goes on with that literal. Everywhere else blanks can be added or
left out, and wherever there are some, others can stand in their place: the tokens are the same, and
so is the outcome of an evaluation, which reads nothing but the tokens. Main statement:
`blanks_matter_only_in_literals`.
-/

namespace Reckon

/-! ## Places in a literal -/

/-- A literal is pending at the end of the text, which is a digit, a point, or a minus where an
operand is expected. -/
def EndsInLiteral (source : String) : Prop :=
  ∃ before c, source.toList = before ++ [c] ∧
    (isLiteralChar c = true ∨ c = '-' ∧ OperandPosition source before)

/-- The text goes on with a literal that is pending in front of it: its first character is a digit
or a point. -/
def GoesOnInLiteral (source : String) : Prop :=
  ∃ c ∈ source.toList.head?, isLiteralChar c = true

theorem operandPosition_of_scan {source : String} {before rest : List Char} {scan : Scan}
    (hs : source.toList = before ++ rest)
    (hscan : before.foldlM Scan.step Scan.initial = .ok scan)
    (he : expectsOperandAfter scan.tokens = true) : OperandPosition source before := by
  have htracks := Lexer.tracks_foldlM hs
  rw [hscan] at htracks
  obtain ⟨lexer, hlexer, hfollows⟩ := htracks
  exact ⟨lexer, hlexer, hfollows.expectsOperand_eq.trans he⟩

theorem endsInLiteral_of_pending {source : String} {scan : Scan}
    (h : source.toList.foldlM Scan.step Scan.initial = .ok scan) (hp : scan.pending ≠ []) :
    EndsInLiteral source := by
  rcases List.eq_nil_or_concat source.toList with hnil | ⟨before, c, hs⟩
  · rw [hnil] at h
    cases h
    exact absurd rfl hp
  · rw [List.concat_eq_append] at hs
    rw [hs, List.foldlM_append] at h
    cases hbefore : before.foldlM Scan.step Scan.initial with
    | error e =>
      rw [hbefore] at h
      cases h
    | ok between =>
      simp only [hbefore, Run.ok_bind, List.foldlM_cons, List.foldlM_nil, bind_pure] at h
      obtain ⟨hlast, -⟩ | ⟨-, -, rfl⟩ | ⟨-, rfl⟩ := Scan.step_cases h
      · refine ⟨before, c, hs, hlast.imp_right fun hsign => ⟨hsign.1, ?_⟩⟩
        exact operandPosition_of_scan hs hbefore hsign.2
      · exact absurd rfl hp
      · exact absurd rfl hp

/-! ## Equal tokens -/

variable {source source' a b w w' : String}

theorem evaluateStages_of_tokens_eq (h : (tokenize source).result = (tokenize source').result)
    (p : Arithmetic) (past : History) :
    (evaluateStages p past source).Agrees (evaluateStages p past source') :=
  (silent_tokenize source).bind_congr (silent_tokenize source') h _

/-- Texts with the same tokens have the same outcome. -/
theorem evaluateFrom_of_tokens_eq (h : (tokenize source).result = (tokenize source').result)
    (hblank : Text.IsBlank source ↔ Text.IsBlank source') (p : Arithmetic) (past : History) :
    (evaluateFrom p past source).Agrees (evaluateFrom p past source') := by
  by_cases hb : Text.IsBlank source
  · rw [evaluateFrom_of_isBlank p past hb, evaluateFrom_of_isBlank p past (hblank.mp hb)]
    exact .refl _
  · have hb' : ¬ Text.IsBlank source' := fun h => hb (hblank.mpr h)
    have hstages := evaluateStages_of_tokens_eq h p past
    refine (evaluateFrom_agrees p past hb).trans (hstages.trans ?_)
    exact (evaluateFrom_agrees p past hb').symm

/-! ## Blanks between texts -/

theorem isBlank_append_blanks (hw : Text.IsBlank w) (a b : String) :
    Text.IsBlank (a ++ w ++ b) ↔ Text.IsBlank (a ++ b) := by
  simp only [Text.IsBlank, String.toList_append, List.mem_append]
  constructor
  · intro h c hc
    exact h c (hc.imp_left .inl)
  · rintro h c ((hc | hc) | hc)
    · exact h c (.inl hc)
    · exact hw c hc
    · exact h c (.inr hc)

theorem toList_ne_nil (h : w ≠ "") : w.toList ≠ [] :=
  fun hnil => h (String.toList_eq_nil_iff.mp hnil)

theorem tokenize_append_blanks (hw : Text.IsBlank w) (hne : w ≠ "")
    (h : ¬ (EndsInLiteral a ∧ GoesOnInLiteral b)) :
    (tokenize (a ++ w ++ b)).result = (tokenize (a ++ b)).result := by
  simp only [result_tokenize, String.toList_append]
  rw [Scan.read_append_blanks hw (toList_ne_nil hne)]
  show _ = Scan.initial.readFrom (a.toList ++ b.toList)
  rw [Scan.readFrom_append]
  cases hscan : a.toList.foldlM Scan.step Scan.initial with
  | error e => rfl
  | ok scan =>
    refine Scan.readFrom_behind_tokens ?_
    by_cases hp : scan.pending = []
    · exact .inl hp
    · refine .inr fun c hc => ?_
      rw [← Bool.not_eq_true]
      exact fun hliteral => h ⟨endsInLiteral_of_pending hscan hp, c, hc, hliteral⟩

/-- Which blanks stand between two texts does not matter. -/
theorem tokenize_replace_blanks (hw : Text.IsBlank w) (hne : w ≠ "") (hw' : Text.IsBlank w')
    (hne' : w' ≠ "") (a b : String) :
    (tokenize (a ++ w ++ b)).result = (tokenize (a ++ w' ++ b)).result := by
  simp only [result_tokenize, String.toList_append]
  rw [Scan.read_append_blanks hw (toList_ne_nil hne),
    Scan.read_append_blanks hw' (toList_ne_nil hne')]

/-- Between two texts blanks can be left out, unless the second one goes on in a literal of the
first, and they can be replaced by others in any case. -/
theorem blanks_matter_only_in_literals (hw : Text.IsBlank w) (hne : w ≠ "") (a b : String) :
    (¬ (EndsInLiteral a ∧ GoesOnInLiteral b) →
        (tokenize (a ++ w ++ b)).result = (tokenize (a ++ b)).result ∧
          ∀ p past, (evaluateFrom p past (a ++ w ++ b)).Agrees (evaluateFrom p past (a ++ b))) ∧
      ∀ w', Text.IsBlank w' → w' ≠ "" →
        (tokenize (a ++ w ++ b)).result = (tokenize (a ++ w' ++ b)).result ∧
          ∀ p past,
            (evaluateFrom p past (a ++ w ++ b)).Agrees (evaluateFrom p past (a ++ w' ++ b)) := by
  constructor
  · intro h
    have htokens := tokenize_append_blanks hw hne h
    exact ⟨htokens, evaluateFrom_of_tokens_eq htokens (isBlank_append_blanks hw a b)⟩
  · intro w' hw' hne'
    have htokens := tokenize_replace_blanks hw hne hw' hne' a b
    have hblank := (isBlank_append_blanks hw a b).trans (isBlank_append_blanks hw' a b).symm
    exact ⟨htokens, evaluateFrom_of_tokens_eq htokens hblank⟩

example : (tokenize "-1 2").result = .ok [.num "-1", .num "2"] ∧
    (tokenize "-12").result = .ok [.num "-12"] := ⟨rfl, rfl⟩

/-- A blank behind a sign that a second one follows, and blanks of two kinds between literals. -/
theorem blank_behind_sign_and_between_literals :
    (evaluate ("3--" ++ "\t" ++ "-2")).result = (evaluate ("3--" ++ "-2")).result ∧
      (evaluate ("3 1" ++ "\n" ++ "2 + *")).result
        = (evaluate ("3 1" ++ "\u3000 " ++ "2 + *")).result := by
  have htab : Text.IsBlank "\t" := List.all_eq_true.mp rfl
  have hline : Text.IsBlank "\n" := List.all_eq_true.mp rfl
  have hwide : Text.IsBlank "\u3000 " := List.all_eq_true.mp rfl
  have hminus : ¬ GoesOnInLiteral "-2" := by
    rintro ⟨c, hc, hliteral⟩
    cases hc
    cases hliteral
  obtain ⟨hleave, -⟩ := blanks_matter_only_in_literals htab (by decide) "3--" "-2"
  obtain ⟨-, hreplace⟩ := blanks_matter_only_in_literals hline (by decide) "3 1" "2 + *"
  have hsame := (hleave fun h => hminus h.2).2 .checked []
  have hother := (hreplace "\u3000 " hwide (by decide)).2 .checked []
  exact ⟨hsame.result_eq, hother.result_eq⟩

end Reckon
