import Mathlib
import Reckon.Binary64

/-!
# The bits of a float

A float is stored in unpacked form, and its bits are packed from that. All bits but those of a NaN
survive, `bits_ofBits`. So a sign and the bits of a finite magnitude make a finite number with that
sign and those bits.
-/

namespace Reckon.Binary64

open Float.Model.UnpackedFloat (unpack pack pack_unpack isNaNBits unpackExponent unpackMantissa)

/-! ## Unpacking and packing -/

theorem toNat_unpackExponent (b : BitVec 64) :
    (@unpackExponent .binary64 b).toNat = b.toNat / 2 ^ 52 % 2 ^ 11 := by
  show b.toNat >>> 52 % 2 ^ 11 = _
  rw [Nat.shiftRight_eq_div_pow]

theorem toNat_unpackMantissa (b : BitVec 64) :
    (@unpackMantissa .binary64 b).toNat = b.toNat % 2 ^ 52 := by
  show b.toNat >>> 0 % 2 ^ 52 = _
  rw [Nat.shiftRight_zero]

/-- All bits but those of a NaN are the bits of a float. -/
theorem bits_ofBits {n : ℕ} (hn : n < 2 ^ 64) (h : n / 2 ^ 52 % 2 ^ 11 = 2047 → n % 2 ^ 52 = 0) :
    bits (Float.ofBits (UInt64.ofNat n)) = n := by
  set b : BitVec 64 := (UInt64.ofNat n).toBitVec with hb
  have htoNat : b.toNat = n := by
    rw [hb, UInt64.toNat_toBitVec, UInt64.toNat_ofNat_of_lt' hn]
  have hnumber : ¬ @isNaNBits .binary64 b = true := by
    intro hnan
    obtain ⟨hones, hfraction⟩ := of_decide_eq_true hnan
    have hfield := congrArg BitVec.toNat hones
    rw [toNat_unpackExponent, htoNat] at hfield
    apply hfraction
    apply BitVec.eq_of_toNat_eq
    rw [toNat_unpackMantissa, htoNat]
    exact h hfield
  have hpack := @pack_unpack .binary64 b (by decide)
  rw [if_neg hnumber] at hpack
  show (pack .binary64 (unpack .binary64 b)).toNat = n
  rw [hpack, htoNat]

/-! ## The sign and the other bits -/

/-- The bits apart from the sign. -/
def unsignedBits (x : Float) : ℕ :=
  bits x % 2 ^ 63

theorem isNegative_iff {x : Float} : isNegative x = true ↔ 2 ^ 63 ≤ bits x := by
  rw [isNegative, decide_eq_true_iff]
  rfl

theorem isFinite_iff {x : Float} : IsFinite x ↔ unsignedBits x < infinityBits := by
  show bits x / 2 ^ 52 % 2 ^ 11 < 2047 ↔ bits x % 2 ^ 63 < 2047 * 2 ^ 52
  omega

section OfSignBits

variable {negative : Bool} {n : ℕ}

theorem bits_ofSignBits (hn : n ≤ infinityBits) :
    bits (ofSignBits negative n) = (if negative then 2 ^ 63 else 0) + n := by
  have hle : n ≤ 2047 * 2 ^ 52 := hn
  cases negative with
  | true =>
    rw [ofSignBits, if_pos rfl, if_pos rfl, Nat.pow_eq]
    exact bits_ofBits (by omega) (by omega)
  | false =>
    rw [ofSignBits, if_neg Bool.false_ne_true, if_neg Bool.false_ne_true, Nat.zero_add]
    exact bits_ofBits (by omega) (by omega)

theorem unsignedBits_ofSignBits (hn : n ≤ infinityBits) :
    unsignedBits (ofSignBits negative n) = n := by
  have hle : n ≤ 2047 * 2 ^ 52 := hn
  rw [unsignedBits, bits_ofSignBits hn]
  split <;> omega

theorem isNegative_ofSignBits (hn : n ≤ infinityBits) :
    isNegative (ofSignBits negative n) = negative := by
  have hle : n ≤ 2047 * 2 ^ 52 := hn
  rw [Bool.eq_iff_iff, isNegative_iff, bits_ofSignBits hn]
  cases negative with
  | true => simp
  | false =>
    simp
    omega

theorem isFinite_ofSignBits (hn : n ≤ infinityBits) :
    IsFinite (ofSignBits negative n) ↔ n < infinityBits := by
  rw [isFinite_iff, unsignedBits_ofSignBits hn]

end OfSignBits

end Reckon.Binary64
