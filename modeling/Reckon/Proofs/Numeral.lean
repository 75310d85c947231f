import Reckon.Proofs.Decimal.Rounding
import Reckon.Proofs.Literal
import Reckon.Proofs.Token.Image

/-!
# Numbers of texts

A text has a number if it is a numeral and what it denotes is not too large. Then its number is a
nearest float, and its sign is that of the text even if the number is zero. No other text has a
number, neither the name of an infinity nor that of a NaN. Main statement: `numerals_are_rounded`.
-/

namespace Reckon

/-- The text is a numeral of the rational number. -/
def IsNumeral (text : String) (x : ℚ) : Prop :=
  ∃ d, Decimal.Denotes text.toList d ∧ d.toRat = x

variable {text : String}

theorem isNumeral_iff {x : ℚ} :
    IsNumeral text x ↔ ∃ d, Decimal.read? text = some d ∧ d.toRat = x := by
  simp only [IsNumeral, Decimal.read?_eq_some_iff]

theorem IsNumeral.unique {x y : ℚ} (hx : IsNumeral text x) (hy : IsNumeral text y) : x = y := by
  obtain ⟨d, hd, rfl⟩ := isNumeral_iff.mp hx
  obtain ⟨d', hd', rfl⟩ := isNumeral_iff.mp hy
  rw [Option.some.inj (hd.symm.trans hd')]

theorem result_parseNumber_eq_ok_iff {value : Float} :
    (parseNumber text).result = .ok value ↔ literalValue? text = some value := by
  refine ⟨literalValue?_of_result_parseNumber, fun h => ?_⟩
  rw [parseNumber, h]
  rfl

theorem result_parseNumber_of_none (h : ∀ value, (parseNumber text).result ≠ .ok value) :
    (parseNumber text).result = .error .invalidExpression := by
  cases hresult : (parseNumber text).result with
  | ok value => exact absurd hresult (h value)
  | error e => rw [error_of_result_parseNumber hresult]

/-- A text has a number exactly if it is a numeral that is not too large. -/
theorem exists_result_parseNumber_iff :
    (∃ value, (parseNumber text).result = .ok value) ↔
      ∃ x, IsNumeral text x ∧ |x| < 2 ^ 1024 - 2 ^ 970 := by
  constructor
  · rintro ⟨value, hvalue⟩
    obtain ⟨d, hd, rfl, hfinite⟩ :=
      literalValue?_eq_some_iff.mp (result_parseNumber_eq_ok_iff.mp hvalue)
    exact ⟨d.toRat, isNumeral_iff.mpr ⟨d, hd, rfl⟩, d.isFinite_toFloat_iff.mp hfinite⟩
  · rintro ⟨x, hx, hlt⟩
    obtain ⟨d, hd, rfl⟩ := isNumeral_iff.mp hx
    have hfinite := d.isFinite_toFloat_iff.mpr hlt
    exact ⟨d.toFloat, result_parseNumber_eq_ok_iff.mpr
      (literalValue?_eq_some_iff.mpr ⟨d, hd, rfl, hfinite⟩)⟩

/-! ## Literals of expressions -/

/-- A literal is a numeral if it has a digit and at most one point. -/
theorem exists_isNumeral_iff {expected : Bool} (h : (Token.num text).Legible expected) :
    (∃ x, IsNumeral text x) ↔
      (∃ c ∈ text.toList, c.isDigit = true) ∧ text.toList.count '.' ≤ 1 := by
  obtain ⟨sign, number, ht, -, hsign, hnumber⟩ := h
  have hisSign : ∃ negative, Decimal.IsSign sign negative := by
    rcases hsign with rfl | ⟨rfl, -⟩
    · exact ⟨false, .none⟩
    · exact ⟨true, .minus⟩
  obtain ⟨negative, hisSign⟩ := hisSign
  have hhead : ∀ c ∈ number.head?, c ≠ '+' ∧ c ≠ '-' := by
    intro c hc
    have hliteral := hnumber c (List.mem_of_mem_head? hc)
    refine ⟨?_, ?_⟩ <;> rintro rfl <;> exact absurd hliteral (by decide)
  have hunsigned : (∃ x, IsNumeral text x) ↔ ∃ n e, Decimal.IsUnsigned number n e := by
    simp only [IsNumeral, ht, Decimal.denotes_append_iff hisSign hhead]
    constructor
    · rintro ⟨-, -, ⟨n, e, hn, -⟩, -⟩
      exact ⟨n, e, hn⟩
    · rintro ⟨n, e, hn⟩
      exact ⟨_, _, ⟨n, e, hn, rfl⟩, rfl⟩
  rw [hunsigned, Decimal.exists_isUnsigned_iff hnumber, ht]
  rcases hsign with rfl | ⟨rfl, -⟩
  · rfl
  · simp

/-- The number of a numeral is the nearest float, with the sign of the text, and it exists exactly
if the numeral denotes less than `2 ^ 1024 - 2 ^ 970`. A literal of an expression is a numeral
exactly if it has a digit and at most one point. -/
theorem numerals_are_rounded (text : String) :
    (∀ x y, IsNumeral text x → IsNumeral text y → x = y) ∧
      (∀ x, IsNumeral text x → |x| < 2 ^ 1024 - 2 ^ 970 →
        ∃ value, (parseNumber text).result = .ok value ∧ Binary64.IsNearest value x ∧
          (Binary64.isNegative value = true ↔ text.toList.head? = some '-')) ∧
      ((∀ x, IsNumeral text x → 2 ^ 1024 - 2 ^ 970 ≤ |x|) →
        (parseNumber text).result = .error .invalidExpression) ∧
      ∀ source tokens, (tokenize source).result = .ok tokens → .num text ∈ tokens →
        ((∃ value, (parseNumber text).result = .ok value) ↔
          (∃ c ∈ text.toList, c.isDigit = true) ∧ text.toList.count '.' ≤ 1 ∧
            ∀ x, IsNumeral text x → |x| < 2 ^ 1024 - 2 ^ 970) := by
  refine ⟨fun x y hx hy => hx.unique hy, ?_, ?_, ?_⟩
  · rintro x ⟨d, hdenotes, rfl⟩ hlt
    have hread := Decimal.read?_eq_some_iff.mpr hdenotes
    have hvalue := literalValue?_eq_some_iff.mpr ⟨d, hread, rfl, d.isFinite_toFloat_iff.mpr hlt⟩
    refine ⟨d.toFloat, result_parseNumber_eq_ok_iff.mpr hvalue, Decimal.isNearest_toFloat hlt, ?_⟩
    rw [d.isNegative_toFloat]
    exact hdenotes.negative_iff
  · intro hlarge
    apply result_parseNumber_of_none
    intro value hvalue
    obtain ⟨x, hx, hlt⟩ := exists_result_parseNumber_iff.mp ⟨value, hvalue⟩
    exact absurd hlt (not_lt.mpr (hlarge x hx))
  · intro source tokens hread hm
    rw [result_tokenize] at hread
    obtain ⟨before, after, ht⟩ := List.append_of_mem hm
    have hlegible := (Token.allLegible_of_read hread).legible_of_eq ht
    rw [exists_result_parseNumber_iff, ← and_assoc, ← exists_isNumeral_iff hlegible]
    constructor
    · rintro ⟨x, hx, hlt⟩
      exact ⟨⟨x, hx⟩, fun y hy => hx.unique hy ▸ hlt⟩
    · rintro ⟨⟨x, hx⟩, hlt⟩
      exact ⟨x, hx, hlt x hx⟩

theorem underflow_overflow_and_a_name :
    (∃ value, (parseNumber "-1e-400").result = .ok value ∧
      Binary64.IsNearest value (Decimal.toRat ⟨true, 1, -400⟩) ∧
      Binary64.isNegative value = true) ∧
      (parseNumber "1e309").result = .error .invalidExpression ∧
      (parseNumber "-Infinity").result = .error .invalidExpression ∧
      ∀ value, (parseNumber "-1.2.3").result ≠ .ok value := by
  have htiny : Decimal.read? "-1e-400" = some ⟨true, 1, -400⟩ := by decide +kernel
  have hlarge : Decimal.read? "1e309" = some ⟨false, 1, 309⟩ := by decide +kernel
  have hname : Decimal.read? "-Infinity" = none := by decide +kernel
  have hpoints : (tokenize "-1.2.3").result = .ok [.num "-1.2.3"] := rfl
  refine ⟨?_, ?_, ?_, ?_⟩
  · obtain ⟨-, hnearest, -, -⟩ := numerals_are_rounded "-1e-400"
    obtain ⟨value, hvalue, hx, hsign⟩ := hnearest _ (isNumeral_iff.mpr ⟨_, htiny, rfl⟩)
      ((Decimal.isFinite_toFloat_iff _).mp (by decide +kernel))
    exact ⟨value, hvalue, hx, hsign.mpr rfl⟩
  · obtain ⟨-, -, hrefused, -⟩ := numerals_are_rounded "1e309"
    apply hrefused
    intro x hx
    obtain ⟨d, hd, rfl⟩ := isNumeral_iff.mp hx
    obtain rfl := Option.some.inj (hlarge.symm.trans hd)
    rw [← not_lt, ← Decimal.isFinite_toFloat_iff]
    decide +kernel
  · obtain ⟨-, -, hrefused, -⟩ := numerals_are_rounded "-Infinity"
    apply hrefused
    intro x hx
    obtain ⟨d, hd, -⟩ := isNumeral_iff.mp hx
    cases hname.symm.trans hd
  · obtain ⟨-, -, -, hliteral⟩ := numerals_are_rounded "-1.2.3"
    intro value hvalue
    obtain ⟨-, hcount, -⟩ := (hliteral _ _ hpoints List.mem_cons_self).mp ⟨value, hvalue⟩
    exact absurd hcount (by decide)

end Reckon
