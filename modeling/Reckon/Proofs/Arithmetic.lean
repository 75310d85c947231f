import Mathlib
import Reckon.Arithmetic

/-!
# Zero divisors

A number compares equal to zero exactly if it is one of the two zeros; a NaN does not. So the two
arithmetics of floating-point numbers give different answers only where the divisor is a zero: there
the checked one answers with an error, `Arithmetic.answer_checked`.
-/

namespace Reckon

namespace Binary64

/-- The numbers that are equal to zero are the two zeros. -/
theorem beq_zero_iff {x : Float} : (x == 0.0) = true ↔ x = 0.0 ∨ x = -0.0 := by
  have hpositive : (0.0 : Float) ≠ Float.nan := by decide +kernel
  have hnegative : (-0.0 : Float) ≠ Float.nan := by decide +kernel
  have hsign : (0.0 : Float) ≠ -0 := by decide +kernel
  have hzero : (0.0 : Float) = 0 := by decide +kernel
  rw [Float.beq_iff_ne_nan_and_eq]
  constructor
  · rintro ⟨-, -, h | ⟨-, h⟩ | ⟨h, -⟩⟩
    · exact .inl h
    · exact absurd h hsign
    · exact .inr h
  · rintro (rfl | rfl)
    · exact ⟨hpositive, hpositive, .inl rfl⟩
    · exact ⟨hnegative, hpositive, .inr (.inr ⟨rfl, hzero⟩)⟩

end Binary64

/-- The call divides by a zero of either sign. -/
def Call.DividesByZero (call : Call) : Prop :=
  call.op = .div ∧ (call.right = 0.0 ∨ call.right = -0.0)

instance : DecidablePred Call.DividesByZero :=
  fun call => inferInstanceAs (Decidable (call.op = .div ∧ (call.right = 0.0 ∨ call.right = -0.0)))

/-- Checked arithmetic refuses the calls that divide by zero and answers all others as plain
arithmetic does. -/
theorem Arithmetic.answer_checked (past : History) (call : Call) :
    checked.answer past call
      = if call.DividesByZero then .error .divisionByZero else ieee.answer past call := by
  obtain ⟨op, left, right⟩ := call
  cases op with
  | add => rfl
  | sub => rfl
  | mul => rfl
  | div =>
    have hzero : Call.DividesByZero ⟨.div, left, right⟩ ↔ (right == 0.0) = true := by
      rw [Binary64.beq_zero_iff]
      exact ⟨fun h => h.2, fun h => ⟨rfl, h⟩⟩
    rw [if_congr hzero rfl rfl]
    rfl

end Reckon
