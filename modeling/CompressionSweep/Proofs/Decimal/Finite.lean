import CompressionSweep.Proofs.Decimal.ReadBack

/-! Which decimals are read as finite doubles: all that are not read as an infinity, and the
whole numbers of 64 bits. -/

namespace CompressionSweep.Decimal

theorem isFinite_of_not_isInf {x : Float} (hle : x.toBits.toNat ≤ infinityBits)
    (h : x.isInf = false) : x.isFinite = true := by
  have hne : magnitudeBits x ≠ infinityBits := fun hh => Bool.eq_false_iff.mp h (isInf_iff.mpr hh)
  have hmag : magnitudeBits x ≤ infinityBits := Nat.le_trans (Nat.mod_le _ _) hle
  exact isFinite_iff.mpr (Nat.lt_of_le_of_ne hmag hne)

/-- A decimal is read as a finite double or as an infinity. -/
theorem isFinite_toFloat {d : Decimal} (h : d.toFloat.isInf = false) : d.toFloat.isFinite = true :=
  isFinite_of_not_isInf (toBits_toFloat_le d) h

theorem isFinite_neg {x : Float} (h : x.isFinite = true) : (-x).isFinite = true := by
  have hb := x.toBits.toNat_lt
  have hneg := toBits_neg h
  rw [isFinite_iff] at h ⊢
  have hx : magnitudeBits x = x.toBits.toNat % 2 ^ 63 := rfl
  have hx' : magnitudeBits (-x) = (-x).toBits.toNat % 2 ^ 63 := rfl
  rw [hx', hneg]
  rw [hx] at h
  have hsame : (x.toBits.toNat + 2 ^ 63) % 2 ^ 64 % 2 ^ 63 = x.toBits.toNat % 2 ^ 63 := by omega
  rwa [hsame]

theorem roundEven_le (n d : Nat) : roundEven n d ≤ n / d + 1 := by
  unfold roundEven
  dsimp only
  split
  · omega
  · split <;> omega

theorem log2_shiftLeft_lt {n a : Nat} (h : n < 2 ^ a) {k : Nat} (hk : 0 < k) :
    (n <<< k).log2 < a + k := by
  by_cases hz : n <<< k = 0
  · rw [hz, Nat.log2_zero]
    omega
  · rw [Nat.log2_lt hz, Nat.shiftLeft_eq, Nat.pow_add]
    exact Nat.mul_lt_mul_of_pos_right h (Nat.two_pow_pos k)

theorem nearestBits_lt {n : Nat} (h : n < 2 ^ 65) : nearestBits n 1 < infinityBits := by
  have hlog : (n <<< 1074).log2 < 65 + 1074 := log2_shiftLeft_lt h (by decide)
  unfold nearestBits
  dsimp only
  rw [Nat.div_one]
  generalize n <<< 1074 = s at hlog
  have hround : roundEven s (1 <<< unitExponent s) ≤ 2 ^ 53 := by
    refine Nat.le_trans (roundEven_le _ _) ?_
    rw [Nat.shiftLeft_eq, Nat.one_mul]
    have hlt : s < 2 ^ 53 * 2 ^ unitExponent s := by
      rw [← Nat.pow_add]
      refine Nat.lt_of_lt_of_le Nat.lt_log2_self (Nat.pow_le_pow_right (by decide) ?_)
      unfold unitExponent
      omega
    exact Nat.succ_le_of_lt ((Nat.div_lt_iff_lt_mul (Nat.two_pow_pos _)).mpr hlt)
  have hunit : unitExponent s ≤ 1086 := by unfold unitExponent; omega
  refine Nat.lt_of_le_of_lt (Nat.min_le_left _ _) ?_
  rw [Nat.shiftLeft_eq, infinityBits_eq]
  omega

theorem isFinite_nearest {n : Nat} (h : n < 2 ^ 65) : (nearest n 1).isFinite = true := by
  refine isFinite_iff.mpr (Nat.lt_of_le_of_lt (Nat.mod_le _ _) ?_)
  rw [toBits_nearest]
  exact nearestBits_lt h

theorem isFinite_toFloat_whole {n : Nat} (h : n < 2 ^ 65) :
    (toFloat ⟨n, 0⟩).isFinite = true := by
  have hsize : digitCount n ≤ 20 :=
    (digitCount_le_iff (by decide)).mpr (Nat.lt_trans h (by decide))
  have hreach : ¬ reach < (digitCount n + 0 : Int) := by unfold reach; omega
  have hreach' : ¬ (digitCount n + 0 : Int) < -reach := by unfold reach; omega
  unfold toFloat
  dsimp only
  by_cases hz : n = 0
  · rw [if_pos hz]
    decide
  · rw [if_neg hz, if_neg hreach, if_neg hreach', if_pos (Int.le_refl 0)]
    have hwhole : n * Nat.pow 10 (Int.toNat 0) = n := Nat.mul_one n
    rw [hwhole]
    exact isFinite_nearest h

end CompressionSweep.Decimal
