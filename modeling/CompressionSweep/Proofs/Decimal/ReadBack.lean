import CompressionSweep.Decimal.Notation
import CompressionSweep.Proofs.Decimal.Bits

/-! Reading decimals as doubles. The double of a decimal depends on its value alone, and the
decimals that a double is written as read back to it. -/

namespace CompressionSweep.Decimal

theorem roundEven_mul (n d : Nat) {k : Nat} (hk : 0 < k) :
    roundEven (n * k) (d * k) = roundEven n d := by
  unfold roundEven
  have hlt : ∀ a b : Nat, a * k < b * k ↔ a < b := fun _ _ => Nat.mul_lt_mul_right hk
  simp only [Nat.mul_div_mul_right n d hk, Nat.mul_mod_mul_right, ← Nat.mul_assoc, hlt]

theorem roundEven_of_dvd {n d : Nat} (h : d ∣ n) (hd : 0 < d) : roundEven n d = n / d := by
  simp [roundEven, Nat.mod_eq_zero_of_dvd h, hd]

theorem nearestBits_mul (n d : Nat) {k : Nat} (hk : 0 < k) :
    nearestBits (n * k) (d * k) = nearestBits n d := by
  simp only [nearestBits, Nat.shiftLeft_eq]
  rw [Nat.mul_right_comm n k, Nat.mul_div_mul_right _ _ hk, Nat.mul_right_comm d k,
    roundEven_mul _ _ hk]

theorem nearest_mul (n d : Nat) {k : Nat} (hk : 0 < k) : nearest (n * k) (d * k) = nearest n d := by
  rw [nearest, nearest, nearestBits_mul n d hk]

theorem shiftLeft_eq_mul (n k : Nat) : n <<< k = n * (1 <<< k) := by
  simp only [Nat.shiftLeft_eq, Nat.one_mul]

theorem nearestBits_exact {m e : Nat} (hm : m < 2 ^ 53) (he : m < 2 ^ 52 → e = 0)
    (hle : e * 2 ^ 52 + m ≤ infinityBits) :
    nearestBits (m * 2 ^ e) (1 <<< 1074) = e * 2 ^ 52 + m := by
  have hpos : 0 < 1 <<< 1074 := by simp only [Nat.shiftLeft_eq, Nat.one_mul, Nat.two_pow_pos]
  have hunit : unitExponent (m * 2 ^ e) = e := by
    unfold unitExponent
    by_cases hlt : m < 2 ^ 52
    · rw [he hlt, Nat.pow_zero, Nat.mul_one]
      by_cases hz : m = 0
      · simp [hz]
      · have := (Nat.log2_lt hz).mpr hlt
        omega
    · have hpow := Nat.two_pow_pos e
      have hlow : 2 ^ 52 * 2 ^ e ≤ m * 2 ^ e := Nat.mul_le_mul_right _ (by omega)
      have hhigh : m * 2 ^ e < 2 ^ 53 * 2 ^ e := Nat.mul_lt_mul_of_pos_right hm hpow
      have hlog : (m * 2 ^ e).log2 = 52 + e :=
        (Nat.log2_eq_iff (by omega)).mpr
          ⟨by rwa [Nat.pow_add], by rwa [Nat.add_right_comm, Nat.pow_add]⟩
      omega
  unfold nearestBits
  dsimp only
  rw [shiftLeft_eq_mul (m * 2 ^ e), Nat.mul_div_cancel _ hpos, hunit, Nat.shiftLeft_eq e,
    Nat.shiftLeft_eq _ e, Nat.mul_assoc m, Nat.mul_comm (2 ^ e), roundEven_of_dvd (Nat.dvd_mul_left _ _),
    Nat.mul_div_cancel _ (Nat.mul_pos hpos (Nat.two_pow_pos e)), Nat.min_eq_left hle]
  exact Nat.mul_pos hpos (Nat.two_pow_pos e)

/-- The doubles are fixed points of rounding. -/
theorem nearestBits_scaledValue {x : Float} (h : x.isFinite = true) :
    nearestBits (scaledValue x) scale = magnitudeBits x := by
  rw [isFinite_iff] at h
  have hinf := infinityBits_eq
  unfold scaledValue scale
  dsimp only
  split
  · rename_i hlt
    have hlt : magnitudeBits x < 2 ^ 52 := hlt
    have hh := nearestBits_exact (m := magnitudeBits x) (e := 0) (by omega) (fun _ => rfl)
      (by omega)
    simpa using hh
  · rename_i hge
    have hge : ¬ magnitudeBits x < 2 ^ 52 := hge
    rw [Nat.shiftLeft_eq _ (_ - 1), Nat.shiftRight_eq_div_pow]
    have hh := nearestBits_exact (m := 2 ^ 52 + magnitudeBits x % 2 ^ 52)
      (e := magnitudeBits x / 2 ^ 52 - 1) (by omega) (by omega) (by omega)
    refine hh.trans ?_
    omega

theorem digitCount_mul_ten {n : Nat} (h : n ≠ 0) : digitCount (n * 10) = digitCount n + 1 := by
  have hh := Nat.toDigits_append_toDigits (b := 10) (by decide) (Nat.pos_of_ne_zero h)
    (d := 0) (by decide)
  rw [Nat.add_zero, Nat.mul_comm] at hh
  rw [digitCount, ← hh, List.length_append]
  rfl

theorem toFloat_mul_ten (c : Nat) (e : Int) :
    toFloat ⟨c * 10, e⟩ = toFloat ⟨c, e + 1⟩ := by
  unfold toFloat
  by_cases hz : c = 0
  · simp [hz]
  have hz' : c * 10 ≠ 0 := by omega
  have hsize : (digitCount (c * 10) + e : Int) = digitCount c + (e + 1) := by
    rw [digitCount_mul_ten hz]; omega
  simp only [hz, hz', if_false, hsize]
  by_cases hpos : 0 ≤ e
  · obtain ⟨k, rfl⟩ := Int.eq_ofNat_of_zero_le hpos
    have hk : ((k : Int) + 1).toNat = k + 1 := rfl
    simp only [hpos, if_true, show (0 : Int) ≤ k + 1 by omega, hk, Int.toNat_natCast,
      Nat.pow_eq, Nat.pow_succ, Nat.mul_assoc, Nat.mul_comm 10]
  · obtain ⟨k, rfl⟩ : ∃ k : Nat, e = -(k + 1 : Nat) := ⟨(-e).toNat - 1, by omega⟩
    simp only [hpos, if_false, Int.neg_neg, Int.toNat_natCast]
    have hscale : nearest (c * 10) (Nat.pow 10 (k + 1)) = nearest c (Nat.pow 10 k) := by
      rw [Nat.pow_eq, Nat.pow_succ, nearest_mul _ _ (by decide), Nat.pow_eq]
    by_cases hk : k = 0
    · subst hk
      have hone : nearest (c * 10) 10 = nearest c 1 := hscale
      simp [hone]
    · have hneg : ¬ (0 : Int) ≤ -(k + 1 : Nat) + 1 := by omega
      have hto : (-(-(k + 1 : Nat) + 1 : Int)).toNat = k := by omega
      simp only [hneg, if_false, hto, hscale]

theorem toFloat_mul_pow (c : Nat) (e : Int) (k : Nat) :
    toFloat ⟨c * 10 ^ k, e⟩ = toFloat ⟨c, e + k⟩ := by
  induction k generalizing e with
  | zero => simp
  | succ k ih =>
    rw [Nat.pow_succ, ← Nat.mul_assoc, toFloat_mul_ten, ih, Int.add_assoc, Int.add_comm 1]
    rfl

theorem toBits_nearest (n d : Nat) : (nearest n d).toBits.toNat = nearestBits n d := by
  have hle : nearestBits n d ≤ infinityBits := Nat.min_le_right _ _
  have hinf := infinityBits_eq
  have hn : (nearestBits n d).toUInt64.toNat = nearestBits n d := Nat.mod_eq_of_lt (by omega)
  rw [nearest, toBits_ofBits, hn]
  rw [hn]
  omega

theorem toBits_toFloat_le (d : Decimal) : d.toFloat.toBits.toNat ≤ infinityBits := by
  have hzero : (0.0 : Float).toBits.toNat ≤ infinityBits := by decide
  have hnear : ∀ n m, (nearest n m).toBits.toNat ≤ infinityBits := fun n m => by
    rw [toBits_nearest]
    exact Nat.min_le_right _ _
  unfold toFloat
  dsimp only
  split_ifs
  · exact hzero
  · rw [toBits_ofBits (by decide)]
    decide
  · exact hzero
  · exact hnear _ _
  · exact hnear _ _

theorem toFloat_stripZeros (n : Nat) (d : Decimal) : (stripZeros n d).toFloat = d.toFloat := by
  induction n generalizing d with
  | zero => rfl
  | succ n ih =>
    rw [stripZeros]
    split
    · rename_i h
      rw [ih, ← toFloat_mul_ten, Nat.div_mul_cancel (Nat.dvd_of_mod_eq_zero h.1)]
    · rfl

theorem digitCount_le_iff {n k : Nat} (hk : 0 < k) : digitCount n ≤ k ↔ n < Nat.pow 10 k :=
  Nat.length_toDigits_le_iff (by decide) hk

theorem digitCount_mono {m n : Nat} (h : m ≤ n) : digitCount m ≤ digitCount n := by
  have hpos : 0 < digitCount n := List.length_pos_iff.mpr Nat.toDigits_ne_nil
  have hn := (digitCount_le_iff hpos).mp (Nat.le_refl _)
  exact (digitCount_le_iff hpos).mpr (Nat.lt_of_le_of_lt h hn)

theorem one_shiftLeft_le {a b : Nat} (h : a ≤ b) : 1 <<< a ≤ 1 <<< b := by
  simp only [Nat.shiftLeft_eq, Nat.one_mul]
  exact Nat.pow_le_pow_right (by decide) h

theorem scaledValue_lt {x : Float} (h : x.isFinite = true) : scaledValue x < 1 <<< 2098 := by
  rw [isFinite_iff, infinityBits_eq] at h
  unfold scaledValue
  dsimp only
  split
  · rename_i hlt
    exact Nat.lt_of_lt_of_le hlt (by decide +kernel)
  · rw [shiftLeft_eq_mul, Nat.shiftRight_eq_div_pow]
    have he : 1 <<< (magnitudeBits x / 2 ^ 52 - 1) ≤ 1 <<< 2045 := one_shiftLeft_le (by omega)
    have hm : 1 <<< 52 + magnitudeBits x % (1 <<< 52) < 2 ^ 53 := by
      have : magnitudeBits x % 2 ^ 52 < 2 ^ 52 := Nat.mod_lt _ (by decide)
      change 2 ^ 52 + magnitudeBits x % 2 ^ 52 < _
      omega
    calc _ < 2 ^ 53 * (1 <<< 2045) :=
          Nat.mul_lt_mul_of_lt_of_le hm he (by decide)
      _ = 1 <<< 2098 := by decide +kernel

theorem scaledValue_pos {x : Float} (h : magnitudeBits x ≠ 0) : 0 < scaledValue x := by
  unfold scaledValue
  dsimp only
  split
  · omega
  · rw [Nat.shiftLeft_eq _ (_ - 1)]
    exact Nat.mul_pos (Nat.lt_of_lt_of_le (by decide) (Nat.le_add_right _ _)) (Nat.two_pow_pos _)

theorem toFloat_neg_exponent {c k : Nat} (hc : c ≠ 0) (hk : 0 < k) (hlow : k ≤ digitCount c + 400)
    (hhigh : digitCount c ≤ k + 400) :
    toFloat ⟨c, -(k : Int)⟩ = nearest c (Nat.pow 10 k) := by
  have hneg : ¬ (0 : Int) ≤ -(k : Int) := by omega
  have hr : ¬ reach < (digitCount c + -(k : Int)) := by unfold reach; omega
  have hr' : ¬ (digitCount c + -(k : Int)) < -reach := by unfold reach; omega
  simp only [toFloat, hc, hneg, hr, hr', if_false, Int.neg_neg, Int.toNat_natCast]

theorem toFloat_exact {x : Float} (h : x.isFinite = true) (hz : magnitudeBits x ≠ 0)
    (hpos : isNegative x = false) : (exact x).toFloat = x := by
  have hlt := scaledValue_lt h
  have hsv := scaledValue_pos hz
  have hsize : 0 < Nat.pow 5 1074 ∧ 674 < digitCount (Nat.pow 5 1074) ∧
      digitCount ((1 <<< 2098) * Nat.pow 5 1074) ≤ 1474 ∧
      Nat.pow 10 1074 = scale * Nat.pow 5 1074 := by decide +kernel
  have hbits := nearestBits_scaledValue h
  unfold exact
  -- The power is large: from here on only these bounds are known of it.
  generalize Nat.pow 5 1074 = f at *
  obtain ⟨hf, hlow, hhigh, hten⟩ := hsize
  have hlow : 674 < digitCount (scaledValue x * f) :=
    Nat.lt_of_lt_of_le hlow (digitCount_mono (Nat.le_mul_of_pos_left f hsv))
  have hhigh : digitCount (scaledValue x * f) ≤ 1474 :=
    Nat.le_trans (digitCount_mono (Nat.mul_le_mul_right f (Nat.le_of_lt hlt))) hhigh
  rw [show (-1074 : Int) = -(1074 : Nat) from rfl,
    toFloat_neg_exponent (Nat.ne_of_gt (Nat.mul_pos hsv hf)) (by decide) (by omega) (by omega),
    hten, nearest_mul _ _ hf]
  apply Float.toBits_inj.mp
  apply UInt64.toNat_inj.mp
  have hb : ¬ 2 ^ 63 ≤ x.toBits.toNat := by rw [← isNegative_iff, hpos]; decide
  have hx : magnitudeBits x = x.toBits.toNat % 2 ^ 63 := rfl
  rw [toBits_nearest, hbits]
  omega

theorem toFloat_shortestFrom {x : Float} (h : x.isFinite = true) (hz : magnitudeBits x ≠ 0)
    (hpos : isNegative x = false) (point : Int) (digits more : Nat) :
    (shortestFrom x point digits more).toFloat = x := by
  induction more generalizing digits with
  | zero => exact toFloat_exact h hz hpos
  | succ more ih =>
    rw [shortestFrom]
    split
    · rename_i d hd
      have hh := List.find?_some hd
      exact Float.toBits_inj.mp (eq_of_beq hh)
    · exact ih _

/-- The digits of a positive double read back to it. -/
theorem toFloat_shortest {x : Float} (h : x.isFinite = true) (hz : magnitudeBits x ≠ 0)
    (hpos : isNegative x = false) : (stripZeros 400 (shortest x)).toFloat = x := by
  rw [toFloat_stripZeros]
  exact toFloat_shortestFrom h hz hpos _ _ _

end CompressionSweep.Decimal
