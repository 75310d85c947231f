import Reckon.Proofs.Evaluate.Failure
import Reckon.Proofs.Rpn.Transcript

/-!
# Announced failures

A failure is announced if the last record gives its reason. All failures of an evaluation are, but
for two: a text of blanks has no record at all, and if the provider has no answer then the last
record is that of the conversion, which succeeded. Main statement: `failures_are_announced`.
-/

namespace Reckon

namespace Record

/-- The error that a record is the reason of. -/
def cause? : Record → Option EvalError
  | rejected c _ => some (.invalidCharacter c)
  | unmatchedRight | unclosedLeft => some .mismatchedParentheses
  | malformedLiteral _ | missingOperand _ | strayParenthesis | valuesLeft _ =>
    some .invalidExpression
  | _ => none

variable {record : Record} {e : EvalError}

theorem isFailure_of_cause? (h : record.cause? = some e) :
    record.isFailure = true ∧ record.level = .debug := by
  cases record with
  | rejected | unmatchedRight | unclosedLeft | malformedLiteral | missingOperand
  | strayParenthesis | valuesLeft => exact ⟨rfl, rfl⟩
  | token | tokenized | popping | pushing | converted | bareNegative | evaluated => cases h

/-- No record is the reason of these two errors. -/
theorem ne_of_cause? (h : record.cause? = some e) : e ≠ .emptyExpression ∧ e ≠ .divisionByZero := by
  cases record <;> cases h <;> simp

end Record

namespace Run

variable {α β σ : Type} {r : Run α} {f : α → Run β} {e : EvalError}

/-- The last record of a run is the reason of the error. -/
def Announces (r : Run α) (e : EvalError) : Prop :=
  ∃ record ∈ r.records.getLast?, record.cause? = some e

/-- If the run fails, it announces its error. -/
def FailsAloud (r : Run α) : Prop :=
  ∀ e, r.result = .error e → r.Announces e

/-- The run records nothing unless it fails, and then it announces its error or has one of the given
errors and still records nothing. -/
structure Terse (unannounced : EvalError → Prop) (r : Run α) : Prop where
  records_of_ok : ∀ a, r.result = .ok a → r.records = []
  of_error : ∀ e, r.result = .error e → r.Announces e ∨ unannounced e ∧ r.records = []

theorem Announces.bind_of_ok {a : α} (h : (f a).Announces e) (hr : r.result = .ok a) :
    (r >>= f).Announces e := by
  obtain ⟨record, hlast, hcause⟩ := h
  refine ⟨record, ?_, hcause⟩
  rw [Run.bind_of_ok hr, List.getLast?_append, hlast]
  rfl

theorem FailsAloud.bind (hr : r.FailsAloud) (hf : ∀ a, r.result = .ok a → (f a).FailsAloud) :
    (r >>= f).FailsAloud := by
  intro e he
  cases hresult : r.result with
  | ok a =>
    rw [result_bind, hresult] at he
    exact (hf a hresult e he).bind_of_ok hresult
  | error e' =>
    rw [result_bind, hresult] at he
    cases he
    have hannounces := hr e hresult
    rwa [Announces, bind_of_error hresult]

theorem failsAloud_pure (a : α) : (pure a : Run α).FailsAloud := by
  intro e he
  cases he

theorem failsAloud_note (record : Record) : (note record).FailsAloud := by
  intro e he
  cases he

/-- A reason and then its error. -/
theorem failsAloud_note_fail {record : Record} (h : record.cause? = some e) :
    (do note record; fail e : Run α).FailsAloud := by
  intro e' he
  cases he
  exact ⟨record, rfl, h⟩

theorem FailsAloud.foldlM {step : σ → α → Run σ} {s : σ} {as : List α}
    (h : ∀ done a rest t, as = done ++ a :: rest → (done.foldlM step s).result = .ok t →
      (step t a).FailsAloud) : (as.foldlM step s).FailsAloud := by
  induction as using List.reverseRecOn with
  | nil => exact failsAloud_pure s
  | append_singleton as a ih =>
    rw [List.foldlM_append]
    refine (ih fun done b rest t hd ht => ?_).bind fun t ht => ?_
    · exact h done b (rest ++ [a]) t (by rw [hd]; simp) ht
    · rw [List.foldlM_cons]
      simp only [List.foldlM_nil, bind_pure]
      exact h as a [] t rfl ht

variable {unannounced : EvalError → Prop}

theorem terse_pure (a : α) : (pure a : Run α).Terse unannounced :=
  ⟨fun _ _ => rfl, fun e he => by cases he⟩

theorem terse_note_fail {record : Record} (h : record.cause? = some e) :
    (do note record; fail e : Run α).Terse unannounced := by
  refine ⟨fun a ha => ?_, fun e' he' => .inl (failsAloud_note_fail h e' he')⟩
  cases ha

theorem Terse.bind (hr : r.Terse unannounced)
    (hf : ∀ a, r.result = .ok a → (f a).Terse unannounced) : (r >>= f).Terse unannounced := by
  cases hresult : r.result with
  | ok a =>
    have hnext := hf a hresult
    rw [bind_of_ok hresult, hr.records_of_ok a hresult]
    exact ⟨hnext.records_of_ok, hnext.of_error⟩
  | error e =>
    rw [bind_of_error hresult]
    refine ⟨fun b hb => ?_, fun e' he' => ?_⟩
    · cases hb
    · cases he'
      exact hr.of_error e hresult

theorem Terse.foldlM {step : σ → α → Run σ} {as : List α}
    (h : ∀ a ∈ as, ∀ s, (step s a).Terse unannounced) (s : σ) :
    (as.foldlM step s).Terse unannounced := by
  induction as generalizing s with
  | nil => exact terse_pure s
  | cons a as ih =>
    rw [List.foldlM_cons]
    refine (h a List.mem_cons_self s).bind fun t _ => ?_
    exact ih (fun b hb => h b (List.mem_cons_of_mem _ hb)) t

end Run

/-! ## The stages -/

/-- A reader fails at foreign characters only, and announces each of them. -/
theorem Lexer.Follows.failsAloud_step {source : String} {lexer : Lexer} {done rest : List Char}
    {scan : Scan} {c : Char} (h : lexer.Follows done scan)
    (hs : source.toList = done ++ c :: rest) : (lexer.step source c).FailsAloud := by
  have htracks := h.tracks_step hs
  cases hscan : scan.step c with
  | ok scan' =>
    rw [hscan] at htracks
    obtain ⟨next, hnext, -⟩ := htracks
    intro e he
    cases hnext.symm.trans he
  | error e =>
    unfold Scan.step at hscan
    split_ifs at hscan with hlit hsym hblank
    rw [step, read, h.expectsOperand_eq, if_neg hlit, if_neg hsym, if_neg hblank]
    exact (Run.failsAloud_note_fail rfl).bind fun _ _ => Run.failsAloud_pure _

theorem Lexer.failsAloud_flush (source : String) (lexer : Lexer) :
    (lexer.flush source).FailsAloud := by
  unfold flush
  split
  · exact (Run.failsAloud_note _).bind fun _ _ => Run.failsAloud_pure _
  · exact Run.failsAloud_pure _

theorem failsAloud_tokenize (source : String) : (tokenize source).FailsAloud := by
  refine Run.FailsAloud.bind ?_ fun lexer _ => ?_
  · refine Run.FailsAloud.foldlM fun done c rest lexer hs hlexer => ?_
    obtain ⟨scan, -, hfollows⟩ := (Lexer.tracks_foldlM hs).exists_of_result hlexer
    exact hfollows.failsAloud_step hs
  · refine (Lexer.failsAloud_flush source lexer).bind fun flushed _ => ?_
    exact (Run.failsAloud_note _).bind fun _ _ => Run.failsAloud_pure _

namespace Rpn

namespace Conversion

theorem failsAloud_close (output stack : List Token) : (close output stack).FailsAloud := by
  fun_induction close output stack with
  | case1 => exact Run.failsAloud_pure _
  | case2 output token stack h ih => exact ih
  | case3 => exact Run.failsAloud_note_fail rfl

theorem failsAloud_drain (output stack : List Token) : (drain output stack).FailsAloud := by
  fun_induction drain output stack with
  | case1 => exact Run.failsAloud_note_fail rfl
  | case2 output token stack h ih => exact ih
  | case3 => exact Run.failsAloud_pure _

/-- An operator of the table is taken in, since the operators that wait are in the table too. -/
theorem Sound.failsAloud_step {depth : Nat} {state : Conversion} (h : Sound depth state)
    {token : Token} (htoken : ∀ symbol, token = .op symbol → ∃ kind : BinOp, symbol = kind.symbol) :
    (step state token).FailsAloud := by
  cases token with
  | num text => exact Run.failsAloud_pure _
  | op symbol =>
    obtain ⟨kind, rfl⟩ := htoken symbol rfl
    obtain ⟨level, hlookup⟩ := Operator.exists_lookup_symbol kind
    have htracks := h.tracks_step (.op kind.symbol)
    rw [Token.depthAfter, hlookup] at htracks
    obtain ⟨next, hnext, -⟩ := htracks
    intro e he
    cases hnext.symm.trans he
  | lparen => exact Run.failsAloud_pure _
  | rparen => exact failsAloud_close _ _

theorem failsAloud_finish (state : Conversion) : (finish state).FailsAloud :=
  (failsAloud_drain _ _).bind fun _ _ =>
    (Run.failsAloud_note _).bind fun _ _ => Run.failsAloud_pure _

end Conversion

theorem failsAloud_ofInfix {tokens : List Token} (h : Token.Known tokens) :
    (ofInfix tokens).FailsAloud := by
  refine Run.FailsAloud.bind ?_ fun state _ => Conversion.failsAloud_finish state
  refine Run.FailsAloud.foldlM fun done token rest state ht hstate => ?_
  obtain ⟨depth, -, hsound⟩ := (Conversion.tracks_foldlM done).exists_of_result hstate
  exact hsound.failsAloud_step fun symbol hsymbol => h symbol (by rw [ht, hsymbol]; simp)

/-- The last record of a conversion is its outcome. -/
theorem getLast?_records_ofInfix {tokens out : List Token}
    (h : (ofInfix tokens).result = .ok out) :
    (ofInfix tokens).records.getLast? = some (.converted out) := by
  rw [records_of_result_ofInfix h]
  exact List.getLast?_concat

theorem terse_parseNumber (text : String) (unannounced : EvalError → Prop) :
    (parseNumber text).Terse unannounced := by
  unfold parseNumber
  split
  · exact Run.terse_pure _
  · exact Run.terse_note_fail rfl

namespace Reduction

theorem terse_call (p : Arithmetic) (past : History) (call : Call) :
    (Run.call p past call).Terse fun e => ∃ past call, p.answer past call = .error e :=
  ⟨fun _ _ => rfl, fun _ he => .inr ⟨⟨past, call, he⟩, rfl⟩⟩

/-- A reduction has a record only if it fails, and no record if it is the provider that fails. -/
theorem terse_step {p : Arithmetic} {token : Token}
    (htoken : ∀ symbol, token = .op symbol → ∃ kind : BinOp, symbol = kind.symbol)
    (state : Reduction) :
    (step p state token).Terse fun e => ∃ past call, p.answer past call = .error e := by
  cases token with
  | num text => exact (terse_parseNumber text _).bind fun _ _ => Run.terse_pure _
  | op symbol =>
    obtain ⟨kind, rfl⟩ := htoken symbol rfl
    obtain ⟨level, hlookup⟩ := Operator.exists_lookup_symbol kind
    refine Run.Terse.bind ?_ fun operator _ => ?_
    · rw [hlookup]
      exact Run.terse_pure _
    · split
      · exact (terse_call p state.past _).bind fun _ _ => Run.terse_pure _
      · exact Run.terse_note_fail rfl
  | lparen | rparen => exact Run.terse_note_fail rfl

theorem terse_finish (state : Reduction) (unannounced : EvalError → Prop) :
    (finish state).Terse unannounced := by
  unfold finish
  split
  · exact Run.terse_pure _
  · exact Run.terse_note_fail rfl

end Reduction

theorem terse_reduceFrom {p : Arithmetic} (past : History) {tokens : List Token}
    (h : Token.Known tokens) :
    (reduceFrom p past tokens).Terse fun e => ∃ past call, p.answer past call = .error e := by
  refine Run.Terse.bind ?_ fun state _ => Reduction.terse_finish state _
  exact Run.Terse.foldlM (fun token ht state => Reduction.terse_step
    (fun symbol hsymbol => h symbol (hsymbol ▸ ht)) state) _

end Rpn

/-! ## Evaluations -/

/-- The postfix order of the tokens of a text. -/
def postfixOf (source : String) : Run (List Token) := do
  let tokens ← tokenize source
  Rpn.ofInfix tokens

variable {p : Arithmetic} {past : History} {source : String} {e : EvalError}

theorem evaluateStages_eq (p : Arithmetic) (past : History) (source : String) :
    evaluateStages p past source = postfixOf source >>= Rpn.reduceFrom p past :=
  (bind_assoc _ _ _).symm

theorem known_of_result_tokenize {tokens : List Token} (h : (tokenize source).result = .ok tokens) :
    Token.Known tokens := by
  rw [result_tokenize] at h
  exact fun symbol hm => Token.exists_op_of_read h hm

theorem failsAloud_postfixOf (source : String) : (postfixOf source).FailsAloud :=
  (failsAloud_tokenize source).bind fun _ htokens =>
    Rpn.failsAloud_ofInfix (known_of_result_tokenize htokens)

/-- A text that has a postfix order has known operators only, and the order is the last record. -/
theorem known_of_result_postfixOf {out : List Token} (h : (postfixOf source).result = .ok out) :
    Token.Known out ∧ (postfixOf source).records.getLast? = some (.converted out) := by
  rw [postfixOf, Run.result_bind_eq_ok] at h
  obtain ⟨tokens, htokens, hout⟩ := h
  constructor
  · intro symbol hm
    exact known_of_result_tokenize htokens symbol
      ((Rpn.mem_iff_of_result_ofInfix hout (by simp) (by simp)).mp hm)
  · rw [postfixOf, Run.records_bind_of_ok htokens, List.getLast?_append,
      Rpn.getLast?_records_ofInfix hout]
    rfl

/-- Stages that fail announce it, unless it is the provider that fails after the conversion. -/
theorem announces_or_of_evaluateStages (h : (evaluateStages p past source).result = .error e) :
    (evaluateStages p past source).Announces e ∨
      (∃ past call, p.answer past call = .error e) ∧
        ∃ out, (evaluateStages p past source).records.getLast? = some (.converted out) := by
  rw [evaluateStages_eq] at h ⊢
  cases hout : (postfixOf source).result with
  | error e' =>
    have haloud := failsAloud_postfixOf source e' hout
    rw [Run.bind_of_error hout] at h ⊢
    cases h
    exact .inl haloud
  | ok out =>
    obtain ⟨hknown, hlast⟩ := known_of_result_postfixOf hout
    rw [Run.result_bind, hout] at h
    rcases (Rpn.terse_reduceFrom past hknown).of_error e h with haloud | ⟨hprovider, hnone⟩
    · exact .inl (haloud.bind_of_ok hout)
    · refine .inr ⟨hprovider, out, ?_⟩
      rw [Run.records_bind_of_ok hout, hnone, List.append_nil, hlast]

/-- An evaluation that fails ends with the records of its stages, unless its text is blank. -/
theorem exists_records_evaluateFrom (hblank : ¬ Text.IsBlank source)
    (h : (evaluateFrom p past source).result = .error e) :
    (evaluateStages p past source).result = .error e ∧
      ∃ before, (evaluateFrom p past source).records
        = before ++ (evaluateStages p past source).records := by
  have hstages := (evaluateFrom_agrees p past hblank).result_eq.symm.trans h
  have hne : ¬ (Text.trim source).isEmpty = true := fun he => hblank (Text.isEmpty_trim_iff.mp he)
  obtain ⟨found, hfound⟩ := exists_result_negativeLiteral? (Text.trim source)
  refine ⟨hstages, (negativeLiteral? (Text.trim source)).records, ?_⟩
  rw [evaluateFrom, if_neg hne] at h ⊢
  cases found with
  | some value =>
    rw [Run.result_bind, hfound] at h
    cases h
  | none =>
    rw [Run.records_bind_of_ok hfound]
    dsimp only
    rw [Run.bind_of_error hstages]

/-- A failure is announced, or the text is blank, or the provider has no answer. -/
theorem announces_or_of_evaluateFrom (hblank : ¬ Text.IsBlank source)
    (h : (evaluateFrom p past source).result = .error e) :
    (evaluateFrom p past source).Announces e ∨
      (∃ past call, p.answer past call = .error e) ∧
        ∃ out, (evaluateFrom p past source).records.getLast? = some (.converted out) := by
  obtain ⟨hstages, before, hrecords⟩ := exists_records_evaluateFrom hblank h
  have hlast : ∀ record, (evaluateStages p past source).records.getLast? = some record →
      (evaluateFrom p past source).records.getLast? = some record := by
    intro record hrecord
    rw [hrecords, List.getLast?_append, hrecord]
    rfl
  rcases announces_or_of_evaluateStages hstages with ⟨record, hrecord, hcause⟩ | ⟨hp, out, hout⟩
  · exact .inl ⟨record, hlast record hrecord, hcause⟩
  · exact .inr ⟨hp, out, hlast _ hout⟩

/-- The last record of a failing evaluation is on the level of outcomes and gives the reason of the
error, except for two errors. -/
theorem failures_are_announced (h : (evaluate source).result = .error e) :
    ((∃ record ∈ (evaluate source).records.getLast?, record.level = .debug ∧
        record.cause? = some e) ↔ e ≠ .emptyExpression ∧ e ≠ .divisionByZero) ∧
      (e = .emptyExpression → (evaluate source).records = []) ∧
      (e = .divisionByZero →
        ∃ out, (evaluate source).records.getLast? = some (.converted out)) := by
  have hevaluate : evaluate source = evaluateFrom .checked [] source := rfl
  rw [hevaluate] at h ⊢
  by_cases hblank : Text.IsBlank source
  · rw [evaluateFrom_of_isBlank _ _ hblank] at h ⊢
    cases h
    simp
  obtain ⟨record, hlast, hcause⟩ | ⟨⟨past, call, he⟩, hout⟩ := announces_or_of_evaluateFrom hblank h
  · obtain ⟨hempty, hzero⟩ := Record.ne_of_cause? hcause
    have hlevel := (Record.isFailure_of_cause? hcause).2
    exact ⟨⟨fun _ => ⟨hempty, hzero⟩, fun _ => ⟨record, hlast, hlevel, hcause⟩⟩,
      fun heq => absurd heq hempty, fun heq => absurd heq hzero⟩
  · obtain rfl := Arithmetic.error_of_answer_checked he
    refine ⟨⟨?_, fun hne => absurd rfl hne.2⟩, ?_, fun _ => hout⟩
    · rintro ⟨record, -, -, hcause⟩
      exact Record.ne_of_cause? hcause
    · intro heq
      cases heq

theorem last_records_of_failures :
    ((evaluate "(1 +").result = .error .mismatchedParentheses ∧
      ∃ record ∈ (evaluate "(1 +").records.getLast?, record.level = .debug ∧
        record.cause? = some .mismatchedParentheses) ∧
      (evaluate "-1.2.3").result = .error .invalidExpression ∧
        ∃ record ∈ (evaluate "-1.2.3").records.getLast?, record.level = .debug ∧
          record.cause? = some .invalidExpression := by
  have hopen : (evaluate "(1 +").result = .error .mismatchedParentheses := by decide +kernel
  have hpoints : (evaluate "-1.2.3").result = .error .invalidExpression := by decide +kernel
  obtain ⟨hopenLast, -⟩ := failures_are_announced hopen
  obtain ⟨hpointsLast, -⟩ := failures_are_announced hpoints
  exact ⟨⟨hopen, hopenLast.mpr (by decide)⟩, hpoints, hpointsLast.mpr (by decide)⟩

/-- Blanks alone are refused without a record, and a zero divisor after the record of a success. -/
theorem failures_without_announcement :
    ((evaluate "").result = .error .emptyExpression ∧ (evaluate "").records = []) ∧
      (evaluate "1 / 0").result = .error .divisionByZero ∧
        (evaluate "1 / 0").records.getLast?
          = some (.converted [.num "1", .num "0", .op "/"]) := by
  decide +kernel

end Reckon
