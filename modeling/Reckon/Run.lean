import Reckon.Arithmetic
import Reckon.Record

/-!
# Runs

A `Run` is a computation together with all that can be seen of it: the calls that it made to a
provider, the records that it wrote, and a result or an error. An error ends a run; what was called
and recorded before it stays. Runs form a lawful monad, in which a sequence of two runs has the
calls and the records of the first followed by those of the second.
-/

namespace Reckon

/-- A computation with its calls and its records, both in the order in which they were made. -/
@[ext] structure Run (α : Type) where
  /-- The calls to a provider. -/
  calls : List Call
  /-- The records. -/
  records : List Record
  /-- The result, or the error that ended the run. -/
  result : Except EvalError α

namespace Run

variable {α β : Type}

instance : Monad Run where
  pure a := ⟨[], [], .ok a⟩
  bind r f :=
    match r.result with
    | .ok a => ⟨r.calls ++ (f a).calls, r.records ++ (f a).records, (f a).result⟩
    | .error e => ⟨r.calls, r.records, .error e⟩

/-- Writes a record. -/
def note (record : Record) : Run Unit :=
  ⟨[], [record], .ok ()⟩

/-- Ends a run with an error. -/
def fail (e : EvalError) : Run α :=
  ⟨[], [], .error e⟩

/-- A result or an error, found without a call or a record. -/
def ofExcept (x : Except EvalError α) : Run α :=
  ⟨[], [], x⟩

/-- Calls a provider after the calls of the history. -/
def call (p : Arithmetic) (past : History) (c : Call) : Run Float :=
  ⟨[c], [], p.answer past c⟩

/-- Goes on after an error, without a result; the calls and the records of the run stay. -/
def attempt (r : Run α) : Run (Option α) :=
  ⟨r.calls, r.records, .ok r.result.toOption⟩

/-! ## What a run shows -/

@[simp] theorem calls_pure (a : α) : (pure a : Run α).calls = [] := rfl

@[simp] theorem records_pure (a : α) : (pure a : Run α).records = [] := rfl

@[simp] theorem result_pure (a : α) : (pure a : Run α).result = .ok a := rfl

@[simp] theorem calls_note (record : Record) : (note record).calls = [] := rfl

@[simp] theorem records_note (record : Record) : (note record).records = [record] := rfl

@[simp] theorem result_note (record : Record) : (note record).result = .ok () := rfl

@[simp] theorem calls_fail (e : EvalError) : (fail e : Run α).calls = [] := rfl

@[simp] theorem records_fail (e : EvalError) : (fail e : Run α).records = [] := rfl

@[simp] theorem result_fail (e : EvalError) : (fail e : Run α).result = .error e := rfl

@[simp] theorem calls_ofExcept (x : Except EvalError α) : (ofExcept x).calls = [] := rfl

@[simp] theorem records_ofExcept (x : Except EvalError α) : (ofExcept x).records = [] := rfl

@[simp] theorem result_ofExcept (x : Except EvalError α) : (ofExcept x).result = x := rfl

@[simp] theorem calls_call (p : Arithmetic) (past : History) (c : Call) :
    (call p past c).calls = [c] := rfl

@[simp] theorem records_call (p : Arithmetic) (past : History) (c : Call) :
    (call p past c).records = [] := rfl

@[simp] theorem result_call (p : Arithmetic) (past : History) (c : Call) :
    (call p past c).result = p.answer past c := rfl

/-- A run that ends with a result is followed by the next one. -/
theorem bind_of_ok {r : Run α} {a : α} (h : r.result = .ok a) (f : α → Run β) :
    r >>= f = ⟨r.calls ++ (f a).calls, r.records ++ (f a).records, (f a).result⟩ := by
  simp only [Bind.bind, h]

/-- Nothing follows a run that ends with an error. -/
theorem bind_of_error {r : Run α} {e : EvalError} (h : r.result = .error e) (f : α → Run β) :
    r >>= f = ⟨r.calls, r.records, .error e⟩ := by
  simp only [Bind.bind, h]

/-- A sequence of two runs has a result exactly if both have one. -/
theorem result_bind_eq_ok {r : Run α} {f : α → Run β} {b : β} :
    (r >>= f).result = .ok b ↔ ∃ a, r.result = .ok a ∧ (f a).result = .ok b := by
  cases h : r.result with
  | ok a => simp [bind_of_ok h]
  | error e => simp [bind_of_error h]

instance : LawfulMonad Run := LawfulMonad.mk' Run
  (by
    intro α ⟨calls, records, result⟩
    cases result with
    | error e => rfl
    | ok a => simp [Functor.map])
  (by
    intro α β a f
    simp [Bind.bind, Pure.pure])
  (by
    intro α β γ ⟨calls, records, result⟩ f g
    cases result with
    | error e => rfl
    | ok a => cases h : (f a).result <;> simp [Bind.bind, h])

end Run

end Reckon
