import Mathlib
import MiniScheme.Number.Shortest

/-!
# The bits of a double

A finite double is its sign and the number `scale * 2 ^ 52 + mantissa`, which are its other bits:
taking a double apart and putting it together again loses nothing. What is read is never the double
that is no number, so it equals itself. All this is said of the model of doubles in the core
library; nothing is assumed of them.
-/
open Float.Model (Format UnpackedFloat)
open Float.Model.UnpackedFloat
namespace MiniScheme.Number

theorem toNat_unpackExponent (b : BitVec Format.binary64.numBits) :
    (unpackExponent b).toNat = b.toNat / 2 ^ 52 % 2 ^ 11 := by
  simp [unpackExponent, Nat.shiftRight_eq_div_pow]

theorem toNat_unpackMantissa (b : BitVec Format.binary64.numBits) :
    (unpackMantissa b).toNat = b.toNat % 2 ^ 52 := by
  simp [unpackMantissa]

theorem special_iff (b : BitVec Format.binary64.numBits) :
    unpackExponent b = -1#11 ↔ (unpackExponent b).toNat = 2047 := by
  rw [← BitVec.toNat_inj]
  rfl

/-- A finite double has no special exponent. -/
theorem field_ne_of_isFinite (x : Float) (finite : x.isFinite) :
    x.toBits.toNat / 2 ^ 52 % 2 ^ 11 ≠ 2047 := by
  intro field
  have special := (special_iff x.toBits.toBitVec).mpr
    ((toNat_unpackExponent x.toBits.toBitVec).trans field)
  have unpacked : x.isFinite = (unpack Format.binary64 x.toBits.toBitVec).isFinite := rfl
  rw [unpacked] at finite
  unfold UnpackedFloat.unpack at finite
  dsimp only at finite
  rw [if_pos special] at finite
  split at finite <;> cases finite

/-- A finite double equals itself. -/
theorem beq_self (x : Float) (finite : x.isFinite) : x == x := by
  rw [Float.beq_self_iff]
  rintro rfl
  exact absurd finite (by decide)

/-- What `magnitude` gives for a finite double: 53 bits at most, all of them used above the least
scale, and not beyond the greatest double. -/
structure Canonical (mantissa scale : Nat) : Prop where
  bits : mantissa < 2 ^ 53
  full : 0 < scale → 2 ^ 52 ≤ mantissa
  bounded : scale * 2 ^ 52 + mantissa < infinityBits

theorem ofParts_eq (x : Float) {bits : Nat}
    (rest : bits = x.toBits.toNat % 2 ^ 63) : ofParts (isNegative x) bits = x := by
  have bound : x.toBits.toNat < 2 ^ 64 := x.toBits.toNat_lt
  have whole : (if isNegative x then 2 ^ 63 + bits else bits) = x.toBits.toNat := by
    unfold isNegative
    simp only [Nat.pow_eq, beq_iff_eq]
    split <;> omega
  unfold ofParts
  rw [Nat.pow_eq, whole, UInt64.ofNat_toNat, Float.ofBits_toBits]

/-- A finite double is its sign, its mantissa and its scale. -/
theorem exists_magnitude (x : Float) (finite : x.isFinite) :
    ∃ mantissa scale, magnitude x = .finite mantissa scale ∧ Canonical mantissa scale ∧
      ofParts (isNegative x) (scale * 2 ^ 52 + mantissa) = x := by
  have field := field_ne_of_isFinite x finite
  unfold magnitude
  simp only [Nat.pow_eq]
  rw [if_neg field]
  split
  · next least =>
    refine ⟨_, _, rfl, ⟨?_, ?_, ?_⟩, ofParts_eq x ?_⟩
    · omega
    · omega
    · simp only [infinityBits, Nat.pow_eq]
      omega
    · omega
  · next normal =>
    refine ⟨_, _, rfl, ⟨?_, ?_, ?_⟩, ofParts_eq x ?_⟩
    · omega
    · omega
    · simp only [infinityBits, Nat.pow_eq]
      omega
    · omega

/-- No bits up to those of infinity are those of a double that is no number. -/
theorem ofParts_ne_nan (negative : Bool) {bits : Nat} (bounded : bits ≤ infinityBits) :
    ofParts negative bits ≠ Float.nan := by
  simp only [infinityBits, Nat.pow_eq] at bounded
  let whole := if negative then 2 ^ 63 + bits else bits
  have low : whole % 2 ^ 63 = bits := by
    simp only [whole]
    split <;> omega
  have word : (UInt64.ofNat whole).toNat = whole := by
    rw [UInt64.toNat_ofNat', Nat.mod_eq_of_lt]
    simp only [whole]
    split <;> omega
  have valid : Format.binary64.Valid (UInt64.ofNat whole).toBitVec := by
    refine ⟨fun special fraction => absurd ?_ fraction⟩
    rw [special_iff, toNat_unpackExponent] at special
    rw [← BitVec.toNat_inj, toNat_unpackMantissa]
    change (UInt64.ofNat whole).toNat / 2 ^ 52 % 2 ^ 11 = 2047 at special
    change (UInt64.ofNat whole).toNat % 2 ^ 52 = 0
    rw [word] at special ⊢
    omega
  intro same
  have kept : Float.ofBits (UInt64.ofNat whole) = ⟨⟨UInt64.ofNat whole, valid⟩⟩ :=
    Float.ofBits_toBits ⟨⟨UInt64.ofNat whole, valid⟩⟩
  have made : ofParts negative bits = Float.ofBits (UInt64.ofNat whole) := by
    simp only [ofParts, Nat.pow_eq, whole]
  rw [made, kept] at same
  have patterns : (UInt64.ofNat whole).toNat = Float.nan.toBits.toNat := by
    rw [← same]
    rfl
  have nan : Float.nan.toBits.toNat = 2047 * 2 ^ 52 + 2 ^ 51 := by decide +kernel
  rw [word, nan] at patterns
  omega

theorem magnitudeBits_le (coefficient : Nat) (exponent : Int) :
    Decimal.magnitudeBits coefficient exponent ≤ infinityBits := by
  unfold Decimal.magnitudeBits
  split
  · exact Nat.zero_le _
  · split
    · split
      · exact Nat.le_refl _
      · exact Nat.min_le_right ..
    · split
      · exact Nat.zero_le _
      · exact Nat.min_le_right ..

/-- A double that is read equals itself. -/
theorem beq_self_toFloat (d : Decimal) : d.toFloat == d.toFloat := by
  rw [Float.beq_self_iff]
  exact ofParts_ne_nan d.negative (magnitudeBits_le d.coefficient d.exponent)

end MiniScheme.Number
