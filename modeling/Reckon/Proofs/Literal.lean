import Reckon.Grammar
import Reckon.Literal
import Reckon.Proofs.Decimal.Numeral
import Reckon.Proofs.Outcome
import Reckon.Token.Lexer

/-!
# Texts of literals

A literal of an expression need not denote a number: it can be a sign alone, or have points only, or
several. If it denotes one, then what stands behind its sign has a digit and at most one point, so
that it is a literal text, `isLiteralText_of_negative`.
-/

namespace Reckon

namespace Decimal

variable {cs exponent : List Char}

/-- Digits and points have no exponent. -/
theorem IsExponent.eq_nil {e : Int} (h : IsExponent exponent e)
    (hcs : ∀ c ∈ exponent, isLiteralChar c = true) : exponent = [] := by
  cases h with
  | none => rfl
  | some isLetter =>
    have hletter := hcs _ List.mem_cons_self
    rcases isLetter with rfl | rfl <;> exact absurd hletter (by decide)

/-- A numeral of digits and points is the digits, with a point before, among or behind them, or
without a point. -/
theorem exists_isUnsigned_iff_isPointed (hcs : ∀ c ∈ cs, isLiteralChar c = true) :
    (∃ n e, IsUnsigned cs n e) ↔ ∃ digits decimals, IsPointed cs digits decimals ∧ digits ≠ [] ∧
      ∀ c ∈ digits, c.isDigit = true := by
  constructor
  · rintro ⟨_, _, @⟨number, digits, exponent, decimals, e, hpointed, hne, hdigits, hexponent⟩⟩
    obtain rfl := hexponent.eq_nil fun c hc => hcs c (List.mem_append_right _ hc)
    rw [List.append_nil]
    exact ⟨digits, decimals, hpointed, hne, hdigits⟩
  · rintro ⟨digits, decimals, hpointed, hne, hdigits⟩
    have hunsigned := IsUnsigned.intro hpointed hne hdigits .none
    rw [List.append_nil] at hunsigned
    exact ⟨_, _, hunsigned⟩

/-- Digits and points are a numeral if there is a digit among them, and one point at most. -/
theorem exists_isUnsigned_iff (hcs : ∀ c ∈ cs, isLiteralChar c = true) :
    (∃ n e, IsUnsigned cs n e) ↔ (∃ c ∈ cs, c.isDigit = true) ∧ cs.count '.' ≤ 1 := by
  have hnone : ∀ digits : List Char, (∀ c ∈ digits, c.isDigit = true) → digits.count '.' = 0 :=
    fun digits hdigits =>
      List.count_eq_zero.mpr fun hm => (not_sign_of_isDigit (hdigits _ hm)).2 rfl
  rw [exists_isUnsigned_iff_isPointed hcs]
  constructor
  · rintro ⟨digits, decimals, hpointed, hne, hdigits⟩
    obtain ⟨d, hd⟩ := List.exists_mem_of_ne_nil digits hne
    have hcount := hnone digits hdigits
    cases hpointed with
    | whole => exact ⟨⟨d, hd, hdigits d hd⟩, by omega⟩
    | point =>
      refine ⟨⟨d, ?_, hdigits d hd⟩, ?_⟩
      · rw [List.mem_append] at hd ⊢
        exact hd.imp_right (List.mem_cons_of_mem _)
      · rw [List.count_append] at hcount ⊢
        rw [List.count_cons_self]
        omega
  · rintro ⟨⟨d, hd, hdigit⟩, hcount⟩
    have hisDigit : ∀ c ∈ cs, c ≠ '.' → c.isDigit = true := by
      intro c hc hne
      have hliteral := hcs c hc
      rwa [isLiteralChar, Bool.or_eq_true, beq_iff_eq, or_iff_left hne] at hliteral
    by_cases hpoint : '.' ∈ cs
    · obtain ⟨whole, fraction, rfl⟩ := List.append_of_mem hpoint
      have hmem : ∀ c, c ≠ '.' → (c ∈ whole ++ '.' :: fraction ↔ c ∈ whole ++ fraction) := by
        intro c hne
        simp [hne]
      have hno : '.' ∉ whole ++ fraction := by
        rw [List.count_append, List.count_cons_self] at hcount
        rw [← List.count_eq_zero, List.count_append]
        omega
      refine ⟨whole ++ fraction, fraction.length, .point, ?_, fun c hc => ?_⟩
      · exact List.ne_nil_of_mem ((hmem d (not_sign_of_isDigit hdigit).2).mp hd)
      · have hne : c ≠ '.' := fun heq => hno (heq ▸ hc)
        exact hisDigit c ((hmem c hne).mpr hc) hne
    · exact ⟨cs, 0, .whole, List.ne_nil_of_mem hd,
        fun c hc => hisDigit c hc fun heq => hpoint (heq ▸ hc)⟩

theorem isLiteralText_of_isUnsigned (hcs : ∀ c ∈ cs, isLiteralChar c = true) {n : Nat} {e : Int}
    (h : IsUnsigned cs n e) : IsLiteralText (String.ofList cs) := by
  obtain ⟨digits, decimals, hpointed, hne, hdigits⟩ :=
    (exists_isUnsigned_iff_isPointed hcs).mp ⟨n, e, h⟩
  cases hpointed with
  | whole =>
    exact ⟨[], cs, [], [], by simp, .inl rfl, .inr ⟨rfl, rfl⟩, by simpa using hne,
      by simpa using hdigits⟩
  | @point whole fraction =>
    exact ⟨[], whole, fraction, ['.'], by simp, .inl rfl, .inl rfl, hne, hdigits⟩

end Decimal

theorem silent_parseNumber (text : String) : (parseNumber text).Silent := by
  unfold parseNumber
  split
  · exact Run.silent_pure _
  · exact (Run.silent_note _).bind fun _ => Run.silent_fail _

theorem error_of_result_parseNumber {text : String} {e : EvalError}
    (h : (parseNumber text).result = .error e) : e = .invalidExpression := by
  unfold parseNumber at h
  split at h
  · cases h
  · cases h
    rfl

theorem literalValue?_of_result_parseNumber {text : String} {value : Float}
    (h : (parseNumber text).result = .ok value) : literalValue? text = some value := by
  unfold parseNumber at h
  split at h
  · next number hnumber =>
    cases h
    exact hnumber
  · cases h

/-- No name is that of a finite number. -/
theorem Binary64.not_isFinite_of_named? {text : String} {value : Float}
    (h : named? text = some value) : ¬ IsFinite value := by
  have hinfinity : ∀ negative, ¬ IsFinite (ofSignBits negative infinityBits) := by decide +kernel
  have hnan : ∀ negative, ¬ IsFinite (ofSignBits negative (infinityBits + 1)) := by decide +kernel
  simp only [named?] at h
  split_ifs at h
  · cases h
    exact hinfinity _
  · cases h
    exact hnan _

/-- A literal denotes a number if it is a decimal number whose nearest number is finite. -/
theorem literalValue?_eq_some_iff {text : String} {value : Float} :
    literalValue? text = some value ↔
      ∃ d, Decimal.read? text = some d ∧ d.toFloat = value ∧ Binary64.IsFinite value := by
  rw [literalValue?, Option.filter_eq_some_iff, decide_eq_true_iff, Binary64.parse?]
  cases hread : Decimal.read? text with
  | some d => simp
  | none =>
    constructor
    · rintro ⟨hnamed, hfinite⟩
      exact absurd hfinite (Binary64.not_isFinite_of_named? hnamed)
    · rintro ⟨d, hd, -⟩
      cases hd

/-- What stands behind the sign of a negative number is a literal text. -/
theorem isLiteralText_of_negative {digits : List Char} {value : Float}
    (hdigits : ∀ c ∈ digits, isLiteralChar c = true)
    (h : (parseNumber (String.ofList ('-' :: digits))).result = .ok value) :
    IsLiteralText (String.ofList digits) := by
  have hvalue := literalValue?_of_result_parseNumber h
  obtain ⟨decimal, hdecimal, -, -⟩ := literalValue?_eq_some_iff.mp hvalue
  rw [Decimal.read?, String.toList_ofList, Decimal.splitSign, Option.map_eq_some_iff] at hdecimal
  obtain ⟨⟨n, e⟩, hnumber, -⟩ := hdecimal
  exact Decimal.isLiteralText_of_isUnsigned hdigits (Decimal.readUnsigned?_eq_some_iff.mp hnumber)

end Reckon
