import CompressionSweep.Decimal.Nearest
import Mathlib

/-! The bit pattern of a double: every pattern that is no NaN is the pattern of a double, and
finiteness, infinity and the sign can be read from it. -/

namespace CompressionSweep.Decimal

open Float.Model.UnpackedFloat (Sign pack pack_unpack packComponents unpackMantissa unpackExponent
  unpackSign isNaNBits unpackSign_packComponents unpackExponent_packComponents
  unpackMantissa_packComponents packComponents_unpackSign_unpackExponent_unpackMantissa)
open Float.Model (Format UnpackedFloat)

theorem toNat_packComponents (s : Sign) (e : BitVec 11) (m : BitVec 52) :
    (packComponents Format.binary64 s e m).toNat =
      s.toBitVec.toNat * 2 ^ 63 + e.toNat * 2 ^ 52 + m.toNat := by
  have hm := m.isLt
  have he := e.isLt
  simp only [packComponents, BitVec.toNat_append]
  rw [← Nat.shiftLeft_add_eq_or_of_lt he, ← Nat.shiftLeft_add_eq_or_of_lt hm]
  simp only [Nat.shiftLeft_eq]
  omega

theorem toNat_unpackMantissa (b : BitVec 64) :
    (@unpackMantissa Format.binary64 b).toNat = b.toNat % 2 ^ 52 := by
  simp [unpackMantissa, BitVec.extractLsb]

theorem toNat_unpackExponent (b : BitVec 64) :
    (@unpackExponent Format.binary64 b).toNat = b.toNat / 2 ^ 52 % 2 ^ 11 := by
  simp [unpackExponent, BitVec.extractLsb, Nat.shiftRight_eq_div_pow]

theorem toNat_unpackSign (b : BitVec 64) :
    (@unpackSign Format.binary64 b).toNat = b.toNat / 2 ^ 63 := by
  have hb := b.isLt
  simp [unpackSign, BitVec.extractLsb, Nat.shiftRight_eq_div_pow]
  omega

theorem exponent_eq_iff (b : BitVec 64) :
    @unpackExponent Format.binary64 b = -1#11 ↔ b.toNat / 2 ^ 52 % 2 ^ 11 = 2047 := by
  rw [← toNat_unpackExponent, ← BitVec.toNat_inj]
  rfl

theorem mantissa_eq_iff (b : BitVec 64) :
    @unpackMantissa Format.binary64 b = 0#52 ↔ b.toNat % 2 ^ 52 = 0 := by
  rw [← toNat_unpackMantissa, ← BitVec.toNat_inj]
  rfl

theorem infinityBits_eq : infinityBits = 2047 * 2 ^ 52 := rfl

/-- The value changes its sign with the sign bit. -/
theorem neg_unpack (s : Sign) (e : BitVec 11) (m : BitVec 52) :
    (UnpackedFloat.unpack Format.binary64 (packComponents Format.binary64 s e m)).neg =
      UnpackedFloat.unpack Format.binary64 (packComponents Format.binary64 (-s) e m) := by
  simp only [UnpackedFloat.unpack, unpackSign_packComponents, unpackExponent_packComponents,
    unpackMantissa_packComponents, Sign.ofBitVec_toBitVec]
  split_ifs <;> rfl

theorem isFinite_unpack (b : BitVec 64) :
    (UnpackedFloat.unpack Format.binary64 b).isFinite =
      decide (@unpackExponent Format.binary64 b ≠ -1#11) := by
  simp only [UnpackedFloat.unpack]
  by_cases he : @unpackExponent Format.binary64 b = -1#11
  · rw [if_pos he, decide_eq_false (not_not_intro he)]
    split <;> rfl
  · rw [if_neg he, decide_eq_true he]
    split_ifs <;> rfl

theorem isInf_unpack (b : BitVec 64) :
    (UnpackedFloat.unpack Format.binary64 b).isInf =
      decide (@unpackExponent Format.binary64 b = -1#11 ∧
        @unpackMantissa Format.binary64 b = 0#52) := by
  simp only [UnpackedFloat.unpack]
  by_cases he : @unpackExponent Format.binary64 b = -1#11
  · rw [if_pos he]
    split
    · rename_i hm
      exact (decide_eq_true ⟨he, hm⟩).symm
    · rename_i hm
      exact (decide_eq_false (fun h => hm h.2)).symm
  · rw [if_neg he, decide_eq_false (fun h => he h.1)]
    split_ifs <;> rfl

theorem pack_unpack_of_le {b : BitVec 64} (h : b.toNat % 2 ^ 63 ≤ infinityBits) :
    pack Format.binary64 (UnpackedFloat.unpack Format.binary64 b) = b := by
  have hnan : ¬ @isNaNBits Format.binary64 b := by
    have hb := b.isLt
    rw [infinityBits_eq] at h
    simp only [isNaNBits, decide_eq_true_eq, ne_eq]
    rintro ⟨he, hm⟩
    rw [exponent_eq_iff] at he
    rw [mantissa_eq_iff] at hm
    omega
  rw [pack_unpack, if_neg hnan]

theorem toBits_ofBits {b : UInt64} (h : b.toNat % 2 ^ 63 ≤ infinityBits) :
    (Float.ofBits b).toBits = b :=
  congrArg UInt64.ofBitVec (pack_unpack_of_le h)

theorem magnitudeBits_eq (x : Float) : magnitudeBits x = x.toBits.toBitVec.toNat % 2 ^ 63 := rfl

theorem isFinite_iff {x : Float} : x.isFinite = true ↔ magnitudeBits x < infinityBits := by
  have hb := x.toBits.toBitVec.isLt
  have hx : x.isFinite = _ := isFinite_unpack x.toBits.toBitVec
  rw [infinityBits_eq, magnitudeBits_eq, hx, decide_eq_true_iff, ne_eq, exponent_eq_iff]
  omega

theorem isInf_iff {x : Float} : x.isInf = true ↔ magnitudeBits x = infinityBits := by
  have hb := x.toBits.toBitVec.isLt
  have hx : x.isInf = _ := isInf_unpack x.toBits.toBitVec
  rw [infinityBits_eq, magnitudeBits_eq, hx, decide_eq_true_iff, exponent_eq_iff, mantissa_eq_iff]
  omega

theorem toNat_signFlipped (b : BitVec 64) :
    (packComponents Format.binary64 (-Sign.ofBitVec (@unpackSign Format.binary64 b))
      (@unpackExponent Format.binary64 b) (@unpackMantissa Format.binary64 b)).toNat =
      (b.toNat + 2 ^ 63) % 2 ^ 64 := by
  have hb := b.isLt
  have hsign : (-Sign.ofBitVec (@unpackSign Format.binary64 b)).toBitVec.toNat =
      1 - b.toNat / 2 ^ 63 := by
    rw [← toNat_unpackSign]
    generalize @unpackSign Format.binary64 b = s
    revert s
    decide
  rw [toNat_packComponents, hsign, toNat_unpackExponent, toNat_unpackMantissa]
  omega

theorem toBits_neg {x : Float} (h : x.isFinite = true) :
    (-x).toBits.toNat = (x.toBits.toNat + 2 ^ 63) % 2 ^ 64 := by
  rw [isFinite_iff, magnitudeBits_eq] at h
  change (pack Format.binary64 (UnpackedFloat.unpack Format.binary64 x.toBits.toBitVec).neg).toNat =
    (x.toBits.toBitVec.toNat + 2 ^ 63) % 2 ^ 64
  have hb := x.toBits.toBitVec.isLt
  generalize x.toBits.toBitVec = b at h hb ⊢
  have hflip := toNat_signFlipped b
  have hsame := @packComponents_unpackSign_unpackExponent_unpackMantissa Format.binary64 b
  conv_lhs => rw [← hsame]
  rw [neg_unpack, pack_unpack_of_le, hflip]
  rw [hflip]
  omega

theorem isNegative_iff {x : Float} : isNegative x = true ↔ 2 ^ 63 ≤ x.toBits.toNat := by
  simp [isNegative]

theorem toBits_magnitude {x : Float} (h : x.isFinite = true) :
    (Float.ofBits (magnitudeBits x).toUInt64).toBits.toNat = magnitudeBits x := by
  have hb := x.toBits.toBitVec.isLt
  rw [isFinite_iff, infinityBits_eq] at h
  have hm : (magnitudeBits x).toUInt64.toNat = magnitudeBits x :=
    Nat.mod_eq_of_lt (by omega)
  rw [toBits_ofBits (by rw [hm, infinityBits_eq]; omega), hm]

theorem isFinite_magnitude {x : Float} (h : x.isFinite = true) :
    (Float.ofBits (magnitudeBits x).toUInt64).isFinite = true := by
  have hm := toBits_magnitude h
  rw [isFinite_iff] at h ⊢
  refine Nat.lt_of_le_of_lt (Nat.mod_le _ _) ?_
  rwa [hm]

theorem signed_magnitude {x : Float} (h : x.isFinite = true) :
    (if isNegative x then -Float.ofBits (magnitudeBits x).toUInt64
      else Float.ofBits (magnitudeBits x).toUInt64) = x := by
  have hb := x.toBits.toNat_lt
  have hm := toBits_magnitude h
  have hx : magnitudeBits x = x.toBits.toNat % 2 ^ 63 := rfl
  apply Float.toBits_inj.mp
  apply UInt64.toNat_inj.mp
  split
  · rename_i hneg
    rw [isNegative_iff] at hneg
    rw [toBits_neg (isFinite_magnitude h), hm]
    omega
  · rename_i hneg
    rw [isNegative_iff] at hneg
    omega

end CompressionSweep.Decimal
