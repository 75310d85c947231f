import Mathlib.Algebra.Order.Field.Power
import Mathlib.Tactic.FieldSimp
import Reckon.Decimal.Rounding
import Reckon.Proofs.Binary64.Nearest

/-!
# Rounding a decimal number

A decimal number is rounded to the nearest float, and to an infinity exactly if its magnitude is
`2 ^ 1024 - 2 ^ 970` or more. Main statements: `Decimal.isFinite_toFloat_iff`,
`Decimal.isNearest_toFloat`.
-/

namespace Reckon

open Binary64

/-! ## Quotients -/

theorem nearestAmong_nearestEven (num : ℕ) {den : ℕ} (hden : 0 < den) :
    NearestAmong id (nearestEven num den) (num / den) := by
  have hpos : (0 : ℚ) < den := by exact_mod_cast hden
  have hrest : (2 * (num % den) < den ↔ ((num % den : ℕ) : ℚ) / den < 1 / 2) ∧
      (den < 2 * (num % den) ↔ 1 / 2 < ((num % den : ℕ) : ℚ) / den) := by
    constructor
    · rw [div_lt_div_iff₀ hpos two_pos, one_mul, mul_comm]
      exact_mod_cast Iff.rfl
    · rw [div_lt_div_iff₀ two_pos hpos, one_mul, mul_comm]
      exact_mod_cast Iff.rfl
  have hlt : ((num % den : ℕ) : ℚ) / den < 1 := by
    rw [div_lt_one hpos]
    exact_mod_cast Nat.mod_lt num hden
  have hle : (0 : ℚ) ≤ ((num % den : ℕ) : ℚ) / den := by positivity
  have hsplit : (num : ℚ) / den = (num / den : ℕ) + ((num % den : ℕ) : ℚ) / den := by
    have hparts : (num : ℚ) = den * (num / den : ℕ) + (num % den : ℕ) := by
      exact_mod_cast (Nat.div_add_mod num den).symm
    rw [hparts, add_div, mul_div_cancel_left₀ _ hpos.ne']
  rw [hsplit, nearestEven, if_congr hrest.1 rfl (if_congr hrest.2 rfl rfl)]
  generalize num / den = below
  generalize ((num % den : ℕ) : ℚ) / den = rest at hlt hle
  split_ifs with hdown hup
  · have hdistance : |(below : ℚ) - (below + rest)| = rest := by
      rw [sub_add_cancel_left, abs_neg, abs_of_nonneg hle]
    exact nearestAmong_id (by linarith) (by intro; linarith)
  · have hdistance : |((below + 1 : ℕ) : ℚ) - (below + rest)| = 1 - rest := by
      rw [Nat.cast_succ, add_sub_add_left_eq_sub, abs_of_pos (by linarith)]
    exact nearestAmong_id (by linarith) (by intro; linarith)
  · obtain rfl : rest = 1 / 2 := by linarith
    have hdistance : |((below + below % 2 : ℕ) : ℚ) - (below + 1 / 2)| = 1 / 2 := by
      rw [Nat.cast_add, add_sub_add_left_eq_sub]
      obtain hparity | hparity := Nat.mod_two_eq_zero_or_one below <;> rw [hparity] <;> norm_num
    refine nearestAmong_id hdistance.le fun _ => ?_
    rw [Nat.even_iff]
    omega

theorem nearestAmong_nearestBits (num : ℕ) {den : ℕ} (hden : 0 < den) :
    NearestAmong magnitudeOfBits (nearestBits num den) (num / den) := by
  have hpos : (0 : ℚ) < den := by exact_mod_cast hden
  generalize hs : (num / den).log2 - 52 = s
  have hk : NearestAmong id (nearestEven num (den * 2 ^ s)) (num / den / 2 ^ s) := by
    have hnearest := nearestAmong_nearestEven num (Nat.mul_pos hden (Nat.two_pow_pos s))
    rwa [Nat.cast_mul, Nat.cast_pow, Nat.cast_ofNat, ← div_div] at hnearest
  have hhigh : num / den < 2 ^ 53 * 2 ^ s := by
    calc num / den < 2 ^ ((num / den).log2 + 1) := Nat.lt_log2_self
      _ ≤ 2 ^ (53 + s) := Nat.pow_le_pow_right two_pos (by omega)
      _ = 2 ^ 53 * 2 ^ s := pow_add 2 53 s
  have hlow : s = 0 ∨ 2 ^ 52 * 2 ^ s ≤ num / den := by
    refine (Nat.eq_zero_or_pos s).imp_right fun hs0 => ?_
    have hne : num / den ≠ 0 := by
      intro hzero
      rw [hzero, Nat.log2_zero] at hs
      omega
    rw [← pow_add, show 52 + s = (num / den).log2 by omega]
    exact Nat.log2_self_le hne
  rw [nearestBits, hs, Nat.pow_eq, Nat.pow_eq]
  apply nearestAmong_block hk
  · refine hlow.imp_right fun hle => ?_
    rw [le_div_iff₀ hpos]
    exact_mod_cast (Nat.le_div_iff_mul_le hden).mp hle
  · rw [div_le_iff₀ hpos]
    exact_mod_cast ((Nat.div_lt_iff_lt_mul hden).mp hhigh).le

/-- What is below half of the smallest positive magnitude goes to zero. -/
theorem nearestAmong_zero {q : ℚ} (hq : 0 ≤ q) (hlt : q < 1 / 2) :
    NearestAmong magnitudeOfBits 0 q := by
  have hdistance : |((0 : ℕ) : ℚ) - q / 2 ^ 0| = q := by
    rw [Nat.cast_zero, pow_zero, div_one, zero_sub, abs_neg, abs_of_nonneg hq]
  refine nearestAmong_block (s := 0) (k := 0) (nearestAmong_id (by linarith) fun _ => Even.zero)
    (.inl rfl) ?_
  linarith

/-! ## Decimal numbers -/

namespace Decimal

/-- The magnitude of a decimal number. -/
def abs (d : Decimal) : ℚ :=
  d.digits * 10 ^ d.exponent

/-- The rational number that a decimal number is. -/
def toRat (d : Decimal) : ℚ :=
  signed d.negative d.abs

theorem abs_nonneg (d : Decimal) : 0 ≤ d.abs := by
  rw [abs]
  positivity

theorem abs_toRat (d : Decimal) : |d.toRat| = d.abs := by
  rw [toRat, abs_signed, abs_of_nonneg d.abs_nonneg]

/-- Powers of ten above `10 ^ 308` are too large for a float. -/
theorem le_abs_of_exponent {d : Decimal} {k : ℕ} (hd : d.digits ≠ 0) (he : d.exponent = k)
    (hk : 308 < k) : 2 ^ 1024 ≤ d.abs := by
  have hnat : 2 ^ 1024 ≤ d.digits * 10 ^ k := by
    calc 2 ^ 1024 = (2 ^ 93) ^ 11 * 2 := by rw [← pow_mul, ← pow_succ]
      _ ≤ (10 ^ 28) ^ 11 * 10 := Nat.mul_le_mul (Nat.pow_le_pow_left (by omega) 11) (by omega)
      _ ≤ 10 ^ k := by
        rw [← pow_mul, ← pow_succ]
        exact pow_le_pow_right₀ (by omega) hk
      _ ≤ d.digits * 10 ^ k := Nat.le_mul_of_pos_left _ (Nat.pos_of_ne_zero hd)
  rw [abs, he, zpow_natCast]
  exact_mod_cast hnat

/-- Powers of ten are at least powers of eight, so that a small number is seen without computing
them. -/
theorem nearestAmong_of_small {d : Decimal} {k u : ℕ} (he : d.exponent = .negSucc k)
    (hk : d.digits.log2 + (u + 2) ≤ 3 * (k + 1)) :
    NearestAmong magnitudeOfBits 0 (d.abs * (2 ^ u : ℕ)) := by
  have hnat : d.digits * 2 ^ u * 2 < 10 ^ (k + 1) := by
    calc d.digits * 2 ^ u * 2 = d.digits * 2 ^ (u + 1) := by rw [Nat.mul_assoc, ← pow_succ]
      _ < 2 ^ (d.digits.log2 + 1) * 2 ^ (u + 1) :=
          Nat.mul_lt_mul_of_pos_right Nat.lt_log2_self (Nat.two_pow_pos _)
      _ = 2 ^ (d.digits.log2 + (u + 2)) := by rw [← pow_add, Nat.add_add_add_comm, Nat.add_assoc]
      _ ≤ 2 ^ (3 * (k + 1)) := Nat.pow_le_pow_right two_pos hk
      _ = 8 ^ (k + 1) := pow_mul 2 3 (k + 1)
      _ ≤ 10 ^ (k + 1) := Nat.pow_le_pow_left (by omega) _
  have hpos : (0 : ℚ) < 10 ^ (k + 1) := by positivity
  apply nearestAmong_zero (mul_nonneg d.abs_nonneg (Nat.cast_nonneg _))
  rw [abs, he, zpow_negSucc, ← div_eq_mul_inv, div_mul_eq_mul_div, div_lt_div_iff₀ hpos two_pos,
    one_mul]
  exact_mod_cast hnat

theorem nearestAmong_of_ofNat {d : Decimal} {k : ℕ} (he : d.exponent = .ofNat k) (unit : ℕ) :
    NearestAmong magnitudeOfBits (nearestBits (d.digits * 10 ^ k * unit) 1) (d.abs * unit) := by
  have hquotient : d.abs * unit = (d.digits * 10 ^ k * unit : ℕ) / (1 : ℕ) := by
    rw [abs, he, Int.ofNat_eq_natCast, zpow_natCast]
    push_cast
    rw [div_one]
  rw [hquotient]
  exact nearestAmong_nearestBits _ one_pos

theorem nearestAmong_of_negSucc {d : Decimal} {k : ℕ} (he : d.exponent = .negSucc k) (unit : ℕ) :
    NearestAmong magnitudeOfBits (nearestBits (d.digits * unit) (10 ^ (k + 1))) (d.abs * unit) := by
  have hquotient : d.abs * unit = (d.digits * unit : ℕ) / (10 ^ (k + 1) : ℕ) := by
    rw [abs, he, zpow_negSucc, ← div_eq_mul_inv, div_mul_eq_mul_div]
    push_cast
    rfl
  rw [hquotient]
  exact nearestAmong_nearestBits _ (Nat.pow_pos (by omega))

/-- The bits of a decimal number are those of the nearest magnitude, or it is so large that they are
infinity's without being computed. -/
theorem nearestAmong_magnitudeBits (d : Decimal) :
    NearestAmong magnitudeOfBits d.magnitudeBits (d.abs * magnitudeOfOne) ∨
      d.magnitudeBits = infinityBits ∧ 2 ^ 1024 ≤ d.abs := by
  rw [magnitudeBits]
  split
  · next hdigits =>
    left
    rw [abs, hdigits, Nat.cast_zero, zero_mul, zero_mul]
    exact nearestAmong_zero le_rfl one_half_pos
  split
  · next hdigits _ k he =>
    split
    · next hk => exact .inr ⟨rfl, le_abs_of_exponent hdigits he hk⟩
    · exact .inl (nearestAmong_of_ofNat he _)
  · next k he =>
    left
    split
    · next hk =>
      rw [magnitudeOfOne_eq]
      exact nearestAmong_of_small he hk
    · exact nearestAmong_of_negSucc he _

/-- The largest numbers that are rounded to a finite float are just below the middle between the
largest finite float and the next power of two. -/
theorem magnitudeBits_lt_iff (d : Decimal) :
    d.magnitudeBits < infinityBits ↔ d.abs < 2 ^ 1024 - 2 ^ 970 := by
  obtain hnearest | ⟨hbits, hlarge⟩ := d.nearestAmong_magnitudeBits
  · rw [lt_infinityBits_iff hnearest, mul_lt_mul_iff_left₀ magnitudeOfOne_pos]
  · have hpos : (0 : ℚ) < 2 ^ 970 := by positivity
    rw [hbits]
    exact iff_of_false (lt_irrefl _) (not_lt.mpr ((sub_le_self _ hpos.le).trans hlarge))

theorem isNegative_toFloat (d : Decimal) : isNegative d.toFloat = d.negative :=
  isNegative_ofSignBits (min_le_right _ _)

theorem isFinite_toFloat_iff (d : Decimal) :
    IsFinite d.toFloat ↔ |d.toRat| < 2 ^ 1024 - 2 ^ 970 := by
  rw [toFloat, isFinite_ofSignBits (min_le_right _ _), abs_toRat, ← magnitudeBits_lt_iff,
    min_lt_iff, or_iff_left (lt_irrefl _)]

theorem isNearest_toFloat {d : Decimal} (h : |d.toRat| < 2 ^ 1024 - 2 ^ 970) :
    IsNearest d.toFloat d.toRat := by
  have hlt : d.magnitudeBits < infinityBits := by
    rw [magnitudeBits_lt_iff, ← abs_toRat]
    exact h
  have hnearest := d.nearestAmong_magnitudeBits.resolve_right fun h => hlt.ne h.1
  have habs : d.abs = d.abs * magnitudeOfOne / magnitudeOfOne :=
    (mul_div_cancel_right₀ _ magnitudeOfOne_pos.ne').symm
  rw [toFloat, min_eq_left hlt.le, toRat, habs]
  exact isNearest_ofSignBits hnearest (mul_nonneg d.abs_nonneg magnitudeOfOne_pos.le) hlt
    d.negative

end Decimal

end Reckon
