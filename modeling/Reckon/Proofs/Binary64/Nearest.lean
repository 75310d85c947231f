import Mathlib.Algebra.Order.Field.Rat
import Mathlib.Algebra.Order.Field.Basic
import Mathlib.Algebra.Order.Group.Abs
import Mathlib.Algebra.Order.Monoid.NatCast
import Mathlib.Data.Nat.Cast.Order.Field
import Mathlib.Order.Monotone.Basic
import Mathlib.Tactic.Linarith
import Mathlib.Tactic.Positivity
import Mathlib.Tactic.Ring
import Reckon.Proofs.Binary64.Bits

/-!
# Nearest floats

The finite floats are rational numbers, and `IsNearest` says which of them a rational number is
rounded to. The magnitudes are a sequence that increases with their bits, as if there were no
largest exponent, and rounding is said of sequences: `NearestAmong`. A number is rounded beyond the
finite magnitudes exactly if it is at least halfway between the largest of them and the next that
there would be, `lt_infinityBits_iff`.
-/

namespace Reckon.Binary64

/-! ## Numbers -/

/-- A number with the sign that the flag says. -/
def signed (negative : Bool) (q : ℚ) : ℚ :=
  if negative then -q else q

/-- The rational number that a finite float is. -/
def toRat (x : Float) : ℚ :=
  signed (isNegative x) (magnitude x / magnitudeOfOne)

/-- The float is finite, and no finite float is nearer to the number. If another is as near, then
the significand of this one is even. -/
structure IsNearest (x : Float) (q : ℚ) : Prop where
  finite : IsFinite x
  nearest : ∀ y, IsFinite y → |toRat x - q| ≤ |toRat y - q|
  even : ∀ y, IsFinite y → |toRat x - q| = |toRat y - q| → toRat y ≠ toRat x →
    Even (significand x)

theorem signed_zero (negative : Bool) : signed negative 0 = 0 := by
  cases negative <;> rfl

theorem abs_signed (negative : Bool) (q : ℚ) : |signed negative q| = |q| := by
  cases negative with
  | true => exact abs_neg q
  | false => rfl

theorem abs_signed_sub (negative : Bool) (p q : ℚ) :
    |signed negative p - signed negative q| = |p - q| := by
  cases negative with
  | true =>
    show |-p - -q| = |p - q|
    rw [neg_sub_neg, abs_sub_comm]
  | false => rfl

theorem abs_signed_not_sub (negative : Bool) (p q : ℚ) :
    |signed (!negative) p - signed negative q| = |p + q| := by
  cases negative with
  | true =>
    show |p - -q| = |p + q|
    rw [sub_neg_eq_add]
  | false =>
    show |-p - q| = |p + q|
    rw [← neg_add', abs_neg]

theorem magnitudeOfOne_eq : magnitudeOfOne = 2 ^ 1074 := by
  decide +kernel

theorem magnitudeOfOne_pos : (0 : ℚ) < magnitudeOfOne := by
  rw [Nat.cast_pos, magnitudeOfOne_eq]
  exact pow_pos two_pos 1074

/-! ## Magnitudes -/

/-- The magnitude with the given bits, as if there were no largest exponent. -/
def magnitudeOfBits (n : ℕ) : ℕ :=
  if n / 2 ^ 52 = 0 then n else (2 ^ 52 + n % 2 ^ 52) * 2 ^ (n / 2 ^ 52 - 1)

variable {s k n m : ℕ}

/-- The significand may reach `2 ^ 53`, which carries into the exponent. -/
theorem magnitudeOfBits_block (hs : s = 0 ∨ 2 ^ 52 ≤ k) (hk : k ≤ 2 ^ 53) :
    magnitudeOfBits (s * 2 ^ 52 + k) = k * 2 ^ s := by
  obtain hsmall | hlarge := Nat.lt_or_ge k (2 ^ 52)
  · obtain rfl : s = 0 := by omega
    rw [magnitudeOfBits, if_pos (by omega)]
    omega
  obtain hlt | heq := Nat.lt_or_eq_of_le hk
  · have hfield : (s * 2 ^ 52 + k) / 2 ^ 52 = s + 1 := by omega
    have hfraction : (s * 2 ^ 52 + k) % 2 ^ 52 = k - 2 ^ 52 := by omega
    rw [magnitudeOfBits, hfield, hfraction, if_neg (Nat.succ_ne_zero s), Nat.add_sub_cancel' hlarge,
      Nat.add_sub_cancel]
  · have hfield : (s * 2 ^ 52 + k) / 2 ^ 52 = s + 2 := by omega
    have hfraction : (s * 2 ^ 52 + k) % 2 ^ 52 = 0 := by omega
    rw [magnitudeOfBits, hfield, hfraction, if_neg (Nat.succ_ne_zero _), heq]
    show (2 ^ 52 + 0) * 2 ^ (s + 1) = 2 ^ 53 * 2 ^ s
    ring

@[simp]
theorem magnitudeOfBits_zero : magnitudeOfBits 0 = 0 :=
  rfl

theorem exists_block (n : ℕ) :
    ∃ s k, n = s * 2 ^ 52 + k ∧ (s = 0 ∨ 2 ^ 52 ≤ k) ∧ k < 2 ^ 53 := by
  obtain hsmall | hlarge := Nat.lt_or_ge n (2 ^ 53)
  · exact ⟨0, n, by omega, .inl rfl, hsmall⟩
  · exact ⟨n / 2 ^ 52 - 1, n % 2 ^ 52 + 2 ^ 52, by omega, .inr (by omega), by omega⟩

theorem magnitudeOfBits_strictMono : StrictMono magnitudeOfBits := by
  refine strictMono_nat_of_lt_succ fun n => ?_
  obtain ⟨s, k, rfl, hs, hk⟩ := exists_block n
  have hsucc : s = 0 ∨ 2 ^ 52 ≤ k + 1 := hs.imp_right fun h => h.trans k.le_succ
  rw [Nat.add_assoc, magnitudeOfBits_block hs hk.le, magnitudeOfBits_block hsucc hk]
  exact Nat.mul_lt_mul_of_pos_right k.lt_succ_self (Nat.two_pow_pos s)

/-- Magnitudes from `2 ^ (52 + s)` on are multiples of `2 ^ s`. -/
theorem magnitudeOfBits_multiple_or_lt (n s : ℕ) :
    (∃ j, magnitudeOfBits n = j * 2 ^ s) ∨ 0 < s ∧ magnitudeOfBits n < 2 ^ 52 * 2 ^ s := by
  obtain ⟨s', k, rfl, hs', hk⟩ := exists_block n
  rw [magnitudeOfBits_block hs' hk.le]
  obtain hle | hlt := le_or_gt s s'
  · refine .inl ⟨k * 2 ^ (s' - s), ?_⟩
    rw [Nat.mul_assoc, ← pow_add, Nat.sub_add_cancel hle]
  · refine .inr ⟨by omega, ?_⟩
    calc k * 2 ^ s' < 2 ^ 53 * 2 ^ s' := Nat.mul_lt_mul_of_pos_right hk (Nat.two_pow_pos s')
      _ = 2 ^ 52 * 2 ^ (s' + 1) := by ring
      _ ≤ 2 ^ 52 * 2 ^ s := Nat.mul_le_mul_left _ (Nat.pow_le_pow_right (by omega) hlt)

theorem magnitude_eq {x : Float} (hx : IsFinite x) :
    magnitude x = magnitudeOfBits (unsignedBits x) := by
  have hfinite : unsignedBits x < 2047 * 2 ^ 52 := isFinite_iff.mp hx
  have hfield : exponentField x = unsignedBits x / 2 ^ 52 := by
    show bits x / 2 ^ 52 % 2 ^ 11 = bits x % 2 ^ 63 / 2 ^ 52
    omega
  have hfraction : fraction x = unsignedBits x % 2 ^ 52 := by
    show bits x % 2 ^ 52 = bits x % 2 ^ 63 % 2 ^ 52
    omega
  rw [magnitude, significand, scale, magnitudeOfBits, hfield, hfraction, Nat.pow_eq, Nat.pow_eq]
  split
  · next hzero =>
    rw [hzero, Nat.zero_sub, pow_zero, Nat.mul_one]
    omega
  · rfl

theorem even_significand_iff {x : Float} : Even (significand x) ↔ Even (unsignedBits x) := by
  have hfraction : fraction x = bits x % 2 ^ 52 := rfl
  rw [significand, unsignedBits, Nat.even_iff, Nat.even_iff, hfraction, Nat.pow_eq]
  split <;> omega

/-! ## Nearest members of a sequence -/

/-- No number of the sequence is nearer to `q` than the one at the index. If another is as near,
then this index is even. -/
structure NearestAmong (value : ℕ → ℕ) (n : ℕ) (q : ℚ) : Prop where
  nearest : ∀ m, |(value n : ℚ) - q| ≤ |(value m : ℚ) - q|
  even : ∀ m, |(value n : ℚ) - q| = |(value m : ℚ) - q| → m ≠ n → Even n

namespace NearestAmong

variable {value : ℕ → ℕ} {q : ℚ}

theorem le_of_le (h : NearestAmong value n q) (hmono : StrictMono value) (hq : q ≤ value m) :
    n ≤ m := by
  by_contra hlt
  have hvalue : (value m : ℚ) < value n := by exact_mod_cast hmono (Nat.lt_of_not_le hlt)
  have hnear := h.nearest m
  rw [abs_of_nonneg (by linarith), abs_of_nonneg (by linarith)] at hnear
  linarith

theorem ge_of_ge (h : NearestAmong value n q) (hmono : StrictMono value) (hq : value m ≤ q) :
    m ≤ n := by
  by_contra hlt
  have hvalue : (value n : ℚ) < value m := by exact_mod_cast hmono (Nat.lt_of_not_le hlt)
  have hnear := h.nearest m
  rw [abs_of_nonpos (by linarith), abs_of_nonpos (by linarith)] at hnear
  linarith

/-- A number in the middle between two neighbours goes to the larger one if that has the even
index. -/
theorem le_iff (h : NearestAmong value n q) (hmono : StrictMono value) (hm : ¬ Even m) :
    n ≤ m ↔ q < (value m + value (m + 1)) / 2 := by
  have hstep : (value m : ℚ) < value (m + 1) := by exact_mod_cast hmono m.lt_succ_self
  constructor
  · intro hle
    by_contra hge
    have hvalue : (value n : ℚ) ≤ value m := by exact_mod_cast hmono.monotone hle
    have hnear := h.nearest (m + 1)
    rw [abs_of_nonpos (by linarith)] at hnear
    rcases le_abs.mp hnear with hnear | hnear
    · -- the number is the middle, and both neighbours are as near
      have hsame : (value n : ℚ) = value m := by linarith
      obtain rfl := hmono.injective (Nat.cast_injective hsame)
      have htie : |(value n : ℚ) - q| = |(value (n + 1) : ℚ) - q| := by
        rw [abs_of_nonpos (by linarith), abs_of_nonneg (by linarith)]
        linarith
      exact hm (h.even (n + 1) htie n.succ_ne_self)
    · linarith
  · intro hlt
    by_contra hgt
    have hvalue : (value (m + 1) : ℚ) ≤ value n := by
      exact_mod_cast hmono.monotone (Nat.lt_of_not_le hgt)
    have hnear := h.nearest m
    rw [abs_of_nonneg (by linarith)] at hnear
    rcases le_abs.mp hnear with hnear | hnear <;> linarith

end NearestAmong

variable {q : ℚ}

/-- Two natural numbers are at least one apart, so that one within a half of a number is nearest
to it. -/
theorem nearestAmong_id (hle : |(k : ℚ) - q| ≤ 1 / 2) (heven : |(k : ℚ) - q| = 1 / 2 → Even k) :
    NearestAmong id k q := by
  have hfar : ∀ j : ℕ, j ≠ k → 1 - |(k : ℚ) - q| ≤ |(j : ℚ) - q| := by
    intro j hne
    have hone : (1 : ℚ) ≤ |(j : ℚ) - k| := by
      exact_mod_cast Int.one_le_abs (sub_ne_zero.mpr (Nat.cast_injective.ne hne))
    have htriangle := abs_sub_le (j : ℚ) q k
    rw [abs_sub_comm q] at htriangle
    linarith
  refine ⟨fun j => ?_, fun j htie hne => heven ?_⟩
  · by_cases hj : j = k
    · rw [hj]
    · exact (by linarith : |(k : ℚ) - q| ≤ 1 - |(k : ℚ) - q|).trans (hfar j hj)
  · have hj : 1 - |(k : ℚ) - q| ≤ |(k : ℚ) - q| := htie ▸ hfar j hne
    linarith

/-- Among the magnitudes of one exponent, the nearest has the nearest significand. Those with a
smaller exponent are below all of them. -/
theorem nearestAmong_block (hk : NearestAmong id k (q / 2 ^ s)) (hlow : s = 0 ∨ 2 ^ 52 * 2 ^ s ≤ q)
    (hhigh : q ≤ 2 ^ 53 * 2 ^ s) : NearestAmong magnitudeOfBits (s * 2 ^ 52 + k) q := by
  have hpos : (0 : ℚ) < 2 ^ s := by positivity
  have hkle : k ≤ 2 ^ 53 := hk.le_of_le strictMono_id (by
    rw [div_le_iff₀ hpos]
    exact_mod_cast hhigh)
  have hs : s = 0 ∨ 2 ^ 52 ≤ k := hlow.imp_right fun hle => hk.ge_of_ge strictMono_id (by
    rw [le_div_iff₀ hpos]
    exact_mod_cast hle)
  have hdistance : ∀ j : ℕ, |((j * 2 ^ s : ℕ) : ℚ) - q| = |(j : ℚ) - q / 2 ^ s| * 2 ^ s := by
    intro j
    rw [← abs_of_pos hpos, ← abs_mul, abs_of_pos hpos, sub_mul, div_mul_cancel₀ _ hpos.ne',
      Nat.cast_mul, Nat.cast_pow, Nat.cast_ofNat]
  have hfar : ∀ m, 0 < s → magnitudeOfBits m < 2 ^ 52 * 2 ^ s →
      |((k * 2 ^ s : ℕ) : ℚ) - q| < |(magnitudeOfBits m : ℚ) - q| := by
    intro m hs0 hm
    have hq := hlow.resolve_left hs0.ne'
    have hm' : (magnitudeOfBits m : ℚ) < 2 ^ 52 * 2 ^ s := by exact_mod_cast hm
    calc |((k * 2 ^ s : ℕ) : ℚ) - q| ≤ |((2 ^ 52 * 2 ^ s : ℕ) : ℚ) - q| := by
          rw [hdistance, hdistance]
          exact mul_le_mul_of_nonneg_right (hk.nearest _) hpos.le
      _ = q - 2 ^ 52 * 2 ^ s := by
          rw [Nat.cast_mul, Nat.cast_pow, Nat.cast_pow, Nat.cast_ofNat,
            abs_of_nonpos (by linarith), neg_sub]
      _ < |(magnitudeOfBits m : ℚ) - q| := by
          rw [abs_of_nonpos (by linarith)]
          linarith
  refine ⟨fun m => ?_, fun m => ?_⟩ <;> rw [magnitudeOfBits_block hs hkle]
  · obtain ⟨j, hj⟩ | ⟨hs0, hm⟩ := magnitudeOfBits_multiple_or_lt m s
    · rw [hj, hdistance, hdistance]
      exact mul_le_mul_of_nonneg_right (hk.nearest j) hpos.le
    · exact (hfar m hs0 hm).le
  · intro htie hne
    obtain ⟨j, hj⟩ | ⟨hs0, hm⟩ := magnitudeOfBits_multiple_or_lt m s
    · have hjk : j ≠ k := by
        rintro rfl
        apply hne
        apply magnitudeOfBits_strictMono.injective
        rw [hj, magnitudeOfBits_block hs hkle]
      rw [hj, hdistance, hdistance, mul_left_inj' hpos.ne'] at htie
      have hkeven := hk.even j htie hjk
      rw [Nat.even_iff] at hkeven ⊢
      omega
    · exact absurd htie (hfar m hs0 hm).ne

/-- Infinity has the bits of the magnitude of `2 ^ 1024`, and the largest finite magnitude is that
of `2 ^ 1024 - 2 ^ 971`. The number in the middle goes to the even bits, which are infinity's. -/
theorem lt_infinityBits_iff (h : NearestAmong magnitudeOfBits n q) :
    n < infinityBits ↔ q < (2 ^ 1024 - 2 ^ 970) * magnitudeOfOne := by
  have hpow : 2 ^ 2045 = 2 * 2 ^ 970 * magnitudeOfOne := by
    rw [magnitudeOfOne_eq, ← pow_succ', ← pow_add]
  have hblock : ∀ k : ℕ, 2 ^ 52 ≤ k → k ≤ 2 ^ 53 →
      (magnitudeOfBits (2045 * 2 ^ 52 + k) : ℚ) = k * (2 * 2 ^ 970) * magnitudeOfOne := by
    intro k hk hle
    rw [magnitudeOfBits_block (.inr hk) hle, hpow, Nat.cast_mul, Nat.cast_mul, Nat.cast_mul,
      Nat.cast_pow 2 970, Nat.cast_ofNat, ← mul_assoc]
  have hlast : infinityBits - 1 = 2045 * 2 ^ 52 + (2 ^ 53 - 1) := rfl
  have hover : infinityBits - 1 + 1 = 2045 * 2 ^ 52 + 2 ^ 53 := rfl
  have hmiddle : (2 ^ 1024 - 2 ^ 970) * (magnitudeOfOne : ℚ)
      = (magnitudeOfBits (infinityBits - 1) + magnitudeOfBits (infinityBits - 1 + 1)) / 2 := by
    rw [hover, hlast, hblock _ (by omega) (by omega), hblock _ (by omega) le_rfl, pow_add 2 54 970]
    generalize (2 : ℚ) ^ 970 = u
    push_cast
    ring
  rw [hmiddle, ← h.le_iff magnitudeOfBits_strictMono (by decide)]
  exact Nat.lt_iff_le_pred (by decide)

/-! ## Nearest floats -/

/-- The distance of a finite float from a number that is given by its sign and its multiple of the
smallest positive float. -/
theorem abs_toRat_sub {y : Float} (hy : IsFinite y) (negative : Bool) (hq : 0 ≤ q) :
    |toRat y - signed negative (q / magnitudeOfOne)|
      = (if isNegative y = negative then |(magnitudeOfBits (unsignedBits y) : ℚ) - q|
          else magnitudeOfBits (unsignedBits y) + q) / magnitudeOfOne := by
  have hone := magnitudeOfOne_pos
  rw [toRat, magnitude_eq hy]
  split
  · next hsame => rw [hsame, abs_signed_sub, ← sub_div, abs_div, abs_of_pos hone]
  · next hother =>
    rw [Bool.eq_not_of_ne hother, abs_signed_not_sub, ← add_div, abs_div, abs_of_pos hone,
      abs_of_nonneg (add_nonneg (Nat.cast_nonneg _) hq)]

/-- A float with the bits of the nearest magnitude is nearest to the number with its sign. Floats
with the other sign are not nearer than zero. -/
theorem isNearest_ofSignBits (h : NearestAmong magnitudeOfBits n q) (hq : 0 ≤ q)
    (hn : n < infinityBits) (negative : Bool) :
    IsNearest (ofSignBits negative n) (signed negative (q / magnitudeOfOne)) := by
  have hone := magnitudeOfOne_pos
  have hfinite : IsFinite (ofSignBits negative n) := (isFinite_ofSignBits hn.le).mpr hn
  have hx : |toRat (ofSignBits negative n) - signed negative (q / magnitudeOfOne)|
      = |(magnitudeOfBits n : ℚ) - q| / magnitudeOfOne := by
    rw [abs_toRat_sub hfinite negative hq, if_pos (isNegative_ofSignBits hn.le),
      unsignedBits_ofSignBits hn.le]
  have hzero : |(magnitudeOfBits 0 : ℚ) - q| = q := by
    rw [magnitudeOfBits_zero, Nat.cast_zero, zero_sub, abs_neg, abs_of_nonneg hq]
  have hle := h.nearest 0
  refine ⟨hfinite, fun y hy => ?_, fun y hy htie hne => ?_⟩
  · rw [hx, abs_toRat_sub hy negative hq]
    apply div_le_div_of_nonneg_right _ hone.le
    split
    · exact h.nearest _
    · have hpos := Nat.cast_nonneg (α := ℚ) (magnitudeOfBits (unsignedBits y))
      linarith
  · rw [hx, abs_toRat_sub hy negative hq, div_left_inj' hone.ne'] at htie
    rw [even_significand_iff, unsignedBits_ofSignBits hn.le]
    split at htie
    · next hsame =>
      refine h.even _ htie fun heq => hne ?_
      rw [toRat, toRat, magnitude_eq hy, magnitude_eq hfinite, hsame, heq,
        isNegative_ofSignBits hn.le, unsignedBits_ofSignBits hn.le]
    · -- the other float is the other zero
      have hpos := Nat.cast_nonneg (α := ℚ) (magnitudeOfBits (unsignedBits y))
      have hy0 : (magnitudeOfBits (unsignedBits y) : ℚ) = 0 := by linarith
      refine h.even 0 (by linarith) ?_
      rintro rfl
      apply hne
      rw [toRat, toRat, magnitude_eq hy, magnitude_eq hfinite, unsignedBits_ofSignBits hn.le, hy0,
        magnitudeOfBits_zero, Nat.cast_zero, zero_div, signed_zero, signed_zero]

end Reckon.Binary64
