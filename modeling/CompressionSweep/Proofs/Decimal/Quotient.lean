import CompressionSweep.Proofs.Decimal.Bits

/-! The quotient of a double by itself. -/

namespace CompressionSweep.Decimal

open Float.Model (Format UnpackedFloat)
open Float.Model.UnpackedFloat (Sign divCore roundWithAccuracy)

/-- The difference of the exponents is zero whatever they are, and the coefficients divide to a
power of two, so that the quotient does not depend on what is divided. -/
theorem divCore_self {m : Nat} (hm : 0 < m) (e : Int) :
    divCore Format.binary64 m e m e = (2 ^ 53, -53, .exact) := by
  have hquotient : m <<< 53 / m = 2 ^ 53 := by
    rw [Nat.shiftLeft_eq, Nat.mul_div_cancel_left _ hm]
  have hrest : m <<< 53 % m = 0 := by rw [Nat.shiftLeft_eq, Nat.mul_mod_right]
  have htarget : min 0 (Format.binary64.targetExponent 0) = -53 := by decide
  have hshift : ((0 : Int) - -53).toNat = 53 := by decide
  simp only [divCore, Int.sub_self, htarget, hshift, hquotient, hrest]
  rfl

theorem unpacked_div_self (s : Sign) {m : Nat} (hm : 0 < m) (e : Int) :
    UnpackedFloat.div Format.binary64 (.finite s m e hm) (.finite s m e hm) =
      roundWithAccuracy Format.binary64 .positive (2 ^ 53) (-53) .exact := by
  have hsign : s / s = .positive := by cases s <;> rfl
  rw [UnpackedFloat.div, divCore_self hm, hsign]

theorem exists_unpack {x : Float} (hfinite : x.isFinite = true) (hpos : 0.0 < x) :
    ∃ s m e, ∃ hm : 0 < m, x.toModel.unpack = .finite s m e hm := by
  have hfinite : x.toModel.unpack.isFinite = true := hfinite
  have hzero : (0.0 : Float).toModel.unpack = .zero .positive := by rfl
  have hpos : UnpackedFloat.lt (0.0 : Float).toModel.unpack x.toModel.unpack = true :=
    of_decide_eq_true hpos
  rw [hzero] at hpos
  cases hx : x.toModel.unpack with
  | notANumber => simp [hx, UnpackedFloat.isFinite] at hfinite
  | infinity s => simp [hx, UnpackedFloat.isFinite] at hfinite
  | zero s =>
    rw [hx] at hpos
    cases hpos
  | finite s m e hm => exact ⟨s, m, e, hm, rfl⟩

theorem div_self_eq_one {x : Float} (hfinite : x.isFinite = true) (hpos : 0.0 < x) :
    x / x = 1.0 := by
  obtain ⟨s, m, e, hm, hx⟩ := exists_unpack hfinite hpos
  have hdiv : x / x = .ofModel (.pack
      (UnpackedFloat.div Format.binary64 x.toModel.unpack x.toModel.unpack)) := rfl
  rw [hdiv, hx, unpacked_div_self]
  decide +kernel

end CompressionSweep.Decimal
