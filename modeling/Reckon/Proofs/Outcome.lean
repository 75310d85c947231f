import Mathlib.Data.List.Induction
import Reckon.Run

/-!
# Outcomes of runs

A caller sees two things of a run: its result and its calls. The result of a sequence of runs is the
sequence of their results, so the results alone can be followed in `Except`; a run that is silent
makes no call. A run tracks a simpler computation if it ends as that one does, `tracks_foldlM`. Two
runs agree if they have the same outcome, whatever they record on the way.
-/

namespace Reckon.Run

variable {α β σ τ : Type}

/-! ## Results -/

@[simp] theorem ok_bind (a : α) (f : α → Except EvalError β) : (.ok a >>= f) = f a := rfl

@[simp] theorem error_bind (e : EvalError) (f : α → Except EvalError β) :
    (.error e >>= f) = .error e := rfl

theorem result_bind (r : Run α) (f : α → Run β) :
    (r >>= f).result = r.result >>= fun a => (f a).result := by
  cases h : r.result with
  | ok a => rw [bind_of_ok h]; rfl
  | error e => rw [bind_of_error h]; rfl

theorem result_eq_ok_of_toOption {r : Run α} {a : α} (h : r.result.toOption = some a) :
    r.result = .ok a := by
  cases hr : r.result with
  | ok b =>
    rw [hr] at h
    exact congrArg Except.ok (Option.some.inj h)
  | error e =>
    rw [hr] at h
    cases h

theorem calls_bind_of_ok {r : Run α} {a : α} (h : r.result = .ok a) (f : α → Run β) :
    (r >>= f).calls = r.calls ++ (f a).calls := by
  rw [bind_of_ok h]

theorem records_bind_of_ok {r : Run α} {a : α} (h : r.result = .ok a) (f : α → Run β) :
    (r >>= f).records = r.records ++ (f a).records := by
  rw [bind_of_ok h]

theorem result_foldlM (f : σ → α → Run σ) (s : σ) (as : List α) :
    (as.foldlM f s).result = as.foldlM (fun s a => (f s a).result) s := by
  induction as generalizing s with
  | nil => rfl
  | cons a as ih =>
    rw [List.foldlM_cons, List.foldlM_cons, result_bind]
    simp only [ih]

theorem result_foldlM_append {f : σ → α → Run σ} {s t : σ} {as bs : List α}
    (h : (as.foldlM f s).result = .ok t) :
    ((as ++ bs).foldlM f s).result = (bs.foldlM f t).result := by
  rw [List.foldlM_append, result_bind, h]
  rfl

/-- What the first state has and each step keeps, the last state has. The invariant may speak of the
elements that have been taken. -/
theorem ok_foldlM_induction {f : σ → α → Except EvalError σ} {I : List α → σ → Prop} {s t : σ}
    {as : List α} (first : I [] s)
    (step : ∀ done s a t, I done s → f s a = .ok t → I (done ++ [a]) t)
    (h : as.foldlM f s = .ok t) : I as t := by
  induction as using List.reverseRecOn generalizing t with
  | nil =>
    cases h
    exact first
  | append_singleton as a ih =>
    rw [List.foldlM_append] at h
    cases hu : as.foldlM f s with
    | error e =>
      rw [hu] at h
      cases h
    | ok u =>
      simp only [hu, ok_bind, List.foldlM_cons, List.foldlM_nil, bind_pure] at h
      exact step as u a t (ih hu) h

theorem foldlM_induction {f : σ → α → Run σ} {I : List α → σ → Prop} {s t : σ} {as : List α}
    (first : I [] s)
    (step : ∀ done s a t, I done s → (f s a).result = .ok t → I (done ++ [a]) t)
    (h : (as.foldlM f s).result = .ok t) : I as t := by
  rw [result_foldlM] at h
  exact ok_foldlM_induction first step h

/-! ## Simulation -/

/-- The run ends as the other computation does: with the same error, or with a result that is in the
relation. -/
def Tracks (R : τ → σ → Prop) (x : Except EvalError τ) (r : Run σ) : Prop :=
  match x with
  | .ok t => ∃ s, r.result = .ok s ∧ R t s
  | .error e => r.result = .error e

theorem Tracks.exists_of_result {R : τ → σ → Prop} {x : Except EvalError τ} {r : Run σ} {s : σ}
    (h : Tracks R x r) (hs : r.result = .ok s) : ∃ t, x = .ok t ∧ R t s := by
  cases x with
  | ok t =>
    obtain ⟨s', hs', hrel⟩ := h
    obtain rfl : s = s' := Except.ok.inj (hs.symm.trans hs')
    exact ⟨t, rfl, hrel⟩
  | error e =>
    have he : r.result = .error e := h
    rw [hs] at he
    cases he

theorem Tracks.result_eq_error_iff {R : τ → σ → Prop} {x : Except EvalError τ} {r : Run σ}
    {e : EvalError} (h : Tracks R x r) : r.result = .error e ↔ x = .error e := by
  cases x with
  | ok t =>
    obtain ⟨s, hs, -⟩ := h
    simp [hs]
  | error e' =>
    have he : r.result = .error e' := h
    simp [he]

theorem Tracks.result_eq {x : Except EvalError σ} {r : Run σ} (h : Tracks Eq x r) :
    r.result = x := by
  cases x with
  | ok t =>
    obtain ⟨s, hs, rfl⟩ := h
    exact hs
  | error e => exact h

theorem Tracks.bind {R : τ → σ → Prop} {S : α → β → Prop} {x : Except EvalError τ} {r : Run σ}
    {g : τ → Except EvalError α} {f : σ → Run β} (h : Tracks R x r)
    (hf : ∀ t s, R t s → Tracks S (g t) (f s)) : Tracks S (x >>= g) (r >>= f) := by
  cases x with
  | ok t =>
    obtain ⟨s, hs, hrel⟩ := h
    have hnext := hf t s hrel
    unfold Tracks at hnext ⊢
    rw [result_bind, hs]
    exact hnext
  | error e =>
    have he : r.result = .error e := h
    show (r >>= f).result = .error e
    rw [result_bind, he]
    rfl

/-- A sequence of steps ends as the other one does if each step does. -/
theorem tracks_foldlM {g : τ → α → Except EvalError τ} {f : σ → α → Run σ}
    {I : List α → τ → σ → Prop} {as : List α} {t : τ} {s : σ} (first : I [] t s)
    (step : ∀ done a rest t s, as = done ++ a :: rest → I done t s →
      Tracks (I (done ++ [a])) (g t a) (f s a)) :
    Tracks (I as) (as.foldlM g t) (as.foldlM f s) := by
  induction as using List.reverseRecOn with
  | nil => exact ⟨s, rfl, first⟩
  | append_singleton as a ih =>
    have hdone : Tracks (I as) (as.foldlM g t) (as.foldlM f s) := by
      refine ih fun done b rest t s hd hi => ?_
      exact step done b (rest ++ [a]) t s (by rw [hd]; simp) hi
    rw [List.foldlM_append, List.foldlM_append]
    refine hdone.bind fun t s hi => ?_
    rw [List.foldlM_cons, List.foldlM_cons]
    simp only [List.foldlM_nil, bind_pure]
    exact step as a [] t s rfl hi

/-! ## Silent runs -/

/-- The run makes no call. -/
def Silent (r : Run α) : Prop :=
  r.calls = []

theorem silent_pure (a : α) : (pure a : Run α).Silent := rfl

theorem silent_note (record : Record) : (note record).Silent := rfl

theorem silent_fail (e : EvalError) : (fail e : Run α).Silent := rfl

theorem silent_ofExcept (x : Except EvalError α) : (ofExcept x).Silent := rfl

theorem Silent.bind {r : Run α} {f : α → Run β} (hr : r.Silent) (hf : ∀ a, (f a).Silent) :
    (r >>= f).Silent := by
  unfold Silent at *
  cases h : r.result with
  | ok a => rw [bind_of_ok h, hr, hf a]; rfl
  | error e => rw [bind_of_error h, hr]

theorem Silent.foldlM {f : σ → α → Run σ} (hf : ∀ s a, (f s a).Silent) (s : σ) (as : List α) :
    (as.foldlM f s).Silent := by
  induction as generalizing s with
  | nil => exact silent_pure s
  | cons a as ih => exact (hf s a).bind fun t => ih t

/-! ## Agreement -/

/-- The runs have the same outcome; their records may differ. -/
structure Agrees (r s : Run α) : Prop where
  /-- They have the same result, or the same error. -/
  result_eq : r.result = s.result
  /-- They make the same calls in the same order. -/
  calls_eq : r.calls = s.calls

theorem Agrees.refl (r : Run α) : r.Agrees r :=
  ⟨rfl, rfl⟩

theorem Agrees.symm {r s : Run α} (h : r.Agrees s) : s.Agrees r :=
  ⟨h.result_eq.symm, h.calls_eq.symm⟩

theorem Agrees.trans {r s t : Run α} (h : r.Agrees s) (h' : s.Agrees t) : r.Agrees t :=
  ⟨h.result_eq.trans h'.result_eq, h.calls_eq.trans h'.calls_eq⟩

/-- A silent run with a result only hands the result on. -/
theorem Silent.bind_agrees {r : Run α} {a : α} (hr : r.Silent) (h : r.result = .ok a)
    (f : α → Run β) : (r >>= f).Agrees (f a) := by
  rw [bind_of_ok h]
  exact ⟨rfl, by rw [hr]; rfl⟩

/-- Nothing follows a silent run with an error. -/
theorem Silent.bind_agrees_fail {r : Run α} {e : EvalError} (hr : r.Silent)
    (h : r.result = .error e) (f : α → Run β) : (r >>= f).Agrees (fail e) := by
  rw [bind_of_error h]
  exact ⟨rfl, hr⟩

/-- Of a silent run only the result matters to what follows. -/
theorem Silent.bind_congr {r s : Run α} (hr : r.Silent) (hs : s.Silent)
    (h : r.result = s.result) (f : α → Run β) : (r >>= f).Agrees (s >>= f) := by
  cases ha : s.result with
  | ok a => exact (hr.bind_agrees (h.trans ha) f).trans (hs.bind_agrees ha f).symm
  | error e => exact (hr.bind_agrees_fail (h.trans ha) f).trans (hs.bind_agrees_fail ha f).symm

/-- A record at the end of a run does not change its outcome. -/
theorem agrees_note_after (r : Run α) (record : α → Record) :
    (do let a ← r; note (record a); return a).Agrees r := by
  cases h : r.result with
  | ok a =>
    rw [bind_of_ok h]
    exact ⟨h.symm, List.append_nil _⟩
  | error e =>
    rw [bind_of_error h]
    exact ⟨h.symm, rfl⟩

end Reckon.Run
