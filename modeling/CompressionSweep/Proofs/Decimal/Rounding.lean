import CompressionSweep.Proofs.Decimal.Patterns

/-! Reading a decimal rounds its value correctly. -/

namespace CompressionSweep.Decimal

/-- The number a decimal stands for. -/
def value (d : Decimal) : ℚ :=
  d.coefficient * 10 ^ d.exponent

/-- The number a finite double stands for. -/
def exactValue (x : Float) : ℚ :=
  (if isNegative x then -(scaledValue x : ℚ) else scaledValue x) / scale

/-- `v` is correctly rounded to the finite double `x`: it lies below the limit, `x` has no sign, no
finite double is nearer to `v`, and if another one is as near, the last bit of `x` is zero. -/
structure IsRounded (x : Float) (v : ℚ) : Prop where
  bounded : v < limit
  finite : x.isFinite = true
  unsigned : isNegative x = false
  nearest : ∀ y : Float, y.isFinite = true → |exactValue x - v| ≤ |exactValue y - v|
  even : ∀ y : Float, y.isFinite = true → y ≠ x → |exactValue y - v| = |exactValue x - v| →
    Even (magnitudeBits x)

theorem exactValue_of_unsigned {x : Float} (h : isNegative x = false) :
    exactValue x = patternValue (magnitudeBits x) / scale := by
  simp only [exactValue, h, Bool.false_eq_true, if_false, scaledValue_eq]

theorem exactValue_of_negative {x : Float} (h : isNegative x = true) :
    exactValue x = -(patternValue (magnitudeBits x) / scale) := by
  simp only [exactValue, h, if_true, scaledValue_eq, neg_div]

theorem distance_le_exactValue {v : ℚ} (hv : 0 ≤ v) (y : Float) :
    |(patternValue (magnitudeBits y) / scale : ℚ) - v| ≤ |exactValue y - v| := by
  have hpos : (0 : ℚ) ≤ patternValue (magnitudeBits y) / scale :=
    div_nonneg (Nat.cast_nonneg _) scale_pos.le
  cases hneg : isNegative y with
  | false => rw [exactValue_of_unsigned hneg]
  | true =>
    rw [exactValue_of_negative hneg]
    generalize (patternValue (magnitudeBits y) / scale : ℚ) = p at hpos
    calc |p - v| ≤ p + v := abs_le.mpr ⟨by linarith, by linarith⟩
      _ = |-p - v| := by rw [← neg_add', abs_neg, abs_of_nonneg (by linarith)]

theorem distance_div_scale (p v : ℚ) : |p / scale - v| = |p - v * scale| / scale := by
  rw [div_sub' scale_pos.ne', abs_div, abs_of_pos scale_pos, mul_comm]

theorem eq_of_magnitudeBits {x y : Float} (hx : isNegative x = false) (hy : isNegative y = false)
    (h : magnitudeBits y = magnitudeBits x) : y = x := by
  have hx' : ¬ 2 ^ 63 ≤ x.toBits.toNat := by rw [← isNegative_iff, hx]; decide
  have hy' : ¬ 2 ^ 63 ≤ y.toBits.toNat := by rw [← isNegative_iff, hy]; decide
  have h : y.toBits.toNat % 2 ^ 63 = x.toBits.toNat % 2 ^ 63 := h
  apply Float.toBits_inj.mp
  apply UInt64.toNat_inj.mp
  omega

theorem Rounds.isRounded {x : Float} {v : ℚ} (hv : 0 ≤ v) (hfinite : x.isFinite = true)
    (hsign : isNegative x = false) (h : Rounds (magnitudeBits x) (v * scale)) : IsRounded x v := by
  have hx : |exactValue x - v| =
      |(patternValue (magnitudeBits x) : ℚ) - v * scale| / scale := by
    rw [exactValue_of_unsigned hsign, distance_div_scale]
  have hnearest : ∀ y : Float, |exactValue x - v| ≤ |exactValue y - v| := by
    intro y
    refine le_trans ?_ (distance_le_exactValue hv y)
    rw [hx, distance_div_scale]
    exact div_le_div_of_nonneg_right (h.nearest _) scale_pos.le
  have hbounded := h.lt_infinityBits_iff.mp (isFinite_iff.mp hfinite)
  refine ⟨lt_of_mul_lt_mul_right hbounded scale_pos.le, hfinite, hsign, fun y _ => hnearest y,
    fun y _ hne heq => ?_⟩
  by_cases hmag : magnitudeBits y = magnitudeBits x
  · -- Only the two zeros are as near to a number without a sign and differ in theirs.
    have hy : isNegative y = true := by
      by_contra hy
      exact hne (eq_of_magnitudeBits hsign (Bool.eq_false_iff.mpr hy) hmag)
    rw [exactValue_of_negative hy, exactValue_of_unsigned hsign, hmag, ← neg_add', abs_neg] at heq
    have hzero : (patternValue (magnitudeBits x) : ℚ) ≤ patternValue 0 := by
      rcases abs_eq_abs.mp heq with hv' | hp
      · obtain rfl : v = 0 := by linarith
        have hfirst := h.nearest 0
        rwa [zero_mul, sub_zero, sub_zero, abs_of_nonneg (Nat.cast_nonneg _),
          abs_of_nonneg (Nat.cast_nonneg _)] at hfirst
      · have hp : (patternValue (magnitudeBits x) / scale : ℚ) = 0 := by linarith
        rw [(div_eq_zero_iff.mp hp).resolve_right scale_pos.ne']
        exact Nat.cast_nonneg _
    rw [Nat.le_zero.mp (patternValue_cast_le.mp hzero)]
    exact Even.zero
  · refine h.even _ hmag (le_antisymm ?_ (h.nearest _))
    have hle := distance_le_exactValue hv y
    rwa [heq, hx, distance_div_scale, div_le_div_iff_of_pos_right scale_pos] at hle

theorem unsigned_ofBits {b : Nat} (hb : b < infinityBits) :
    (Float.ofBits b.toUInt64).isFinite = true ∧ isNegative (Float.ofBits b.toUInt64) = false ∧
      magnitudeBits (Float.ofBits b.toUInt64) = b := by
  have hinf := infinityBits_eq
  have hn : b.toUInt64.toNat = b := Nat.mod_eq_of_lt (by omega)
  have hbits : (Float.ofBits b.toUInt64).toBits.toNat = b := by
    rw [toBits_ofBits (by rw [hn]; omega), hn]
  have hmag : magnitudeBits (Float.ofBits b.toUInt64) = b := by
    refine (congrArg (· % 2 ^ 63) hbits).trans (Nat.mod_eq_of_lt ?_)
    omega
  refine ⟨isFinite_iff.mpr (by rwa [hmag]), ?_, hmag⟩
  rw [Bool.eq_false_iff, ne_eq, isNegative_iff, hbits]
  omega

theorem IsRounded.unique {x y : Float} {v : ℚ} (hx : IsRounded x v) (hy : IsRounded y v) :
    x = y := by
  by_contra hne
  wlog hlt : magnitudeBits x < magnitudeBits y generalizing x y
  · refine this hy hx (Ne.symm hne) (Nat.lt_of_le_of_ne (Nat.le_of_not_lt hlt) (fun h => hne ?_))
    exact eq_of_magnitudeBits hy.unsigned hx.unsigned h.symm
  have htie : |exactValue x - v| = |exactValue y - v| :=
    le_antisymm (hx.nearest y hy.finite) (hy.nearest x hx.finite)
  have hxeven := Nat.even_iff.mp (hx.even y hy.finite (Ne.symm hne) htie.symm)
  have hyeven := Nat.even_iff.mp (hy.even x hx.finite hne htie)
  -- Both patterns are even, so there is a double strictly between them, and it is nearer.
  have hyfinite := isFinite_iff.mp hy.finite
  obtain ⟨hfinite, hsign, hmag⟩ := unsigned_ofBits (b := magnitudeBits x + 1) (by omega)
  have hnear := hx.nearest _ hfinite
  have hleft : (patternValue (magnitudeBits x) : ℚ) < patternValue (magnitudeBits x + 1) :=
    patternValue_cast_lt.mpr (Nat.lt_succ_self _)
  have hright : (patternValue (magnitudeBits x + 1) : ℚ) < patternValue (magnitudeBits y) :=
    patternValue_cast_lt.mpr (by omega)
  rw [exactValue_of_unsigned hx.unsigned, exactValue_of_unsigned hy.unsigned] at htie
  rw [exactValue_of_unsigned hx.unsigned, exactValue_of_unsigned hsign, hmag] at hnear
  have hleft := div_lt_div_of_pos_right hleft scale_pos
  have hright := div_lt_div_of_pos_right hright scale_pos
  have hmiddle := (abs_eq_abs.mp htie).resolve_left (by linarith)
  rw [abs_of_nonpos (by linarith)] at hnear
  exact hnear.not_gt (abs_lt.mpr ⟨by linarith, by linarith⟩)

section Nearest

variable (n : Nat) {d : Nat}

theorem isRounded_nearest (hd : 0 < d) (h : (n / d : ℚ) < limit) :
    IsRounded (nearest n d) (n / d) := by
  have hrounds := rounds_roundedBits n hd
  have hlt := hrounds.lt_infinityBits_iff.mpr (mul_lt_mul_of_pos_right h scale_pos)
  have hbits : nearestBits n d = roundedBits n d := by
    rw [nearestBits_eq, Nat.min_eq_left hlt.le]
  obtain ⟨hfinite, hsign, hmag⟩ := unsigned_ofBits hlt
  rw [nearest, hbits]
  refine Rounds.isRounded (by positivity) hfinite hsign ?_
  rwa [hmag]

theorem nearest_of_limit_le (hd : 0 < d) (h : limit ≤ (n / d : ℚ)) :
    nearest n d = Float.ofBits infinityBits.toUInt64 := by
  have hrounds := rounds_roundedBits n hd
  have hle : infinityBits ≤ roundedBits n d := by
    rw [← Nat.not_lt, hrounds.lt_infinityBits_iff, not_lt]
    exact mul_le_mul_of_nonneg_right h scale_pos.le
  rw [nearest, nearestBits_eq, Nat.min_eq_right hle]

end Nearest

theorem rounds_zero {v : ℚ} (hv : 0 ≤ v) (h : v ≤ 1 / 2) : Rounds 0 v := by
  have h0 : (patternValue 0 : ℚ) = 0 := by norm_num [patternValue]
  have h1 : (patternValue (0 + 1) : ℚ) = 1 := by norm_num [patternValue]
  have hdist : |(patternValue 0 : ℚ) - v| = v := by
    rw [h0, zero_sub, abs_neg, abs_of_nonneg hv]
  refine rounds_of_between (f := 0) ?_ ?_ (.inl rfl) ?_ ?_ (fun _ => Even.zero)
  · rwa [h0]
  · rw [h1]
    linarith
  · rw [hdist, h0, sub_zero]
  · rw [hdist, h1]
    linarith

theorem isRounded_zero {v : ℚ} (hv : 0 ≤ v) (h : v * scale ≤ 1 / 2) : IsRounded 0.0 v :=
  (rounds_zero (mul_nonneg hv scale_pos.le) h).isRounded hv (by decide) (by decide)

theorem value_bounds {d : Decimal} (h : d.coefficient ≠ 0) :
    (10 : ℚ) ^ (digitCount d.coefficient + d.exponent - 1) ≤ d.value ∧
      d.value < (10 : ℚ) ^ (digitCount d.coefficient + d.exponent) := by
  have hten : (10 : ℚ) ≠ 0 := by norm_num
  have hpos : (0 : ℚ) < 10 ^ d.exponent := zpow_pos (by norm_num) _
  have hcount : 0 < digitCount d.coefficient := List.length_pos_iff.mpr Nat.toDigits_ne_nil
  have hhigh : d.coefficient < 10 ^ digitCount d.coefficient :=
    (digitCount_le_iff hcount).mp le_rfl
  have hlow : 10 ^ (digitCount d.coefficient - 1) ≤ d.coefficient := by
    rcases Nat.eq_zero_or_pos (digitCount d.coefficient - 1) with hz | hz
    · rw [hz]
      exact Nat.pos_of_ne_zero h
    · refine Nat.le_of_not_lt (fun hlt => ?_)
      have hle := (digitCount_le_iff hz).mpr hlt
      omega
  constructor
  · have hsplit : (digitCount d.coefficient + d.exponent - 1 : Int) =
        (digitCount d.coefficient - 1 : Nat) + d.exponent := by omega
    rw [hsplit, zpow_add₀ hten, zpow_natCast]
    exact mul_le_mul_of_nonneg_right (by exact_mod_cast hlow) hpos.le
  · rw [zpow_add₀ hten, zpow_natCast]
    exact mul_lt_mul_of_pos_right (by exact_mod_cast hhigh) hpos

theorem limit_le_reach : limit ≤ (10 : ℚ) ^ reach := by
  have h : 2 ^ 1024 ≤ 10 ^ 400 := by decide +kernel
  have h' : (2 : ℚ) ^ 1024 ≤ 10 ^ 400 := by exact_mod_cast h
  have hpos : (0 : ℚ) < 2 ^ 970 := by positivity
  rw [limit, show reach = (400 : Nat) from rfl, zpow_natCast]
  exact (sub_le_self _ hpos.le).trans h'

theorem scale_le_reach : 2 * (scale : ℚ) ≤ (10 : ℚ) ^ reach := by
  have h : 2 * scale ≤ 10 ^ 400 := by decide +kernel
  rw [show reach = (400 : Nat) from rfl, zpow_natCast]
  exact_mod_cast h

/-- A decimal is read as its value correctly rounded, and as infinity from the limit on. -/
theorem toFloat_rounds (d : Decimal) :
    (d.value < limit → IsRounded d.toFloat d.value) ∧
      (limit ≤ d.value → d.toFloat = Float.ofBits infinityBits.toUInt64) := by
  have hten : (1 : ℚ) ≤ 10 := by norm_num
  have hvalue : 0 ≤ d.value := by
    unfold value
    positivity
  unfold toFloat
  dsimp only
  split_ifs with hzero hlarge hsmall hwhole
  · have hv : d.value * scale ≤ 1 / 2 := by
      rw [value, hzero, Nat.cast_zero, zero_mul, zero_mul]
      norm_num
    have hrounded := isRounded_zero hvalue hv
    exact ⟨fun _ => hrounded, fun h => absurd hrounded.bounded h.not_gt⟩
  · have hle : limit ≤ d.value :=
      limit_le_reach.trans ((zpow_le_zpow_right₀ hten (by omega)).trans (value_bounds hzero).1)
    exact ⟨fun h => absurd h hle.not_gt, fun _ => rfl⟩
  · have hlt : d.value ≤ 10 ^ (-reach) :=
      (value_bounds hzero).2.le.trans (zpow_le_zpow_right₀ hten hsmall.le)
    have hv : d.value * scale ≤ 1 / 2 := by
      have hreach : (0 : ℚ) < 10 ^ reach := zpow_pos (by norm_num) _
      have hdouble : (0 : ℚ) ≤ 2 * scale := mul_nonneg zero_le_two scale_pos.le
      rw [zpow_neg] at hlt
      have hmul := mul_le_mul hlt scale_le_reach hdouble (inv_pos.mpr hreach).le
      rw [inv_mul_cancel₀ hreach.ne'] at hmul
      linarith
    have hrounded := isRounded_zero hvalue hv
    exact ⟨fun _ => hrounded, fun h => absurd hrounded.bounded h.not_gt⟩
  · have hv : d.value = (d.coefficient * Nat.pow 10 d.exponent.toNat : Nat) / (1 : Nat) := by
      obtain ⟨k, hk⟩ := Int.eq_ofNat_of_zero_le hwhole
      rw [value, hk, Int.toNat_natCast, zpow_natCast, Nat.pow_eq]
      push_cast
      rw [div_one]
    rw [hv]
    exact ⟨isRounded_nearest _ Nat.one_pos, nearest_of_limit_le _ Nat.one_pos⟩
  · have hpos : 0 < Nat.pow 10 (-d.exponent).toNat := Nat.pow_pos (by decide)
    have hv : d.value = d.coefficient / (Nat.pow 10 (-d.exponent).toNat : Nat) := by
      obtain ⟨k, hk⟩ := Int.eq_ofNat_of_zero_le (a := -d.exponent) (by omega)
      rw [value, hk, Int.toNat_natCast, ← neg_neg d.exponent, hk, zpow_neg, zpow_natCast,
        div_eq_mul_inv, Nat.pow_eq]
      push_cast
      rfl
    rw [hv]
    exact ⟨isRounded_nearest _ hpos, nearest_of_limit_le _ hpos⟩

theorem isInf_toFloat_iff (d : Decimal) : d.toFloat.isInf = true ↔ limit ≤ d.value := by
  obtain ⟨hfinite, hinfinite⟩ := toFloat_rounds d
  constructor
  · intro h
    by_contra hlt
    have hfin := isFinite_iff.mp (hfinite (not_le.mp hlt)).finite
    exact hfin.ne (isInf_iff.mp h)
  · intro h
    rw [hinfinite h]
    decide

/-- Unless a decimal is read as infinity, it is read as the double its value rounds to. -/
theorem isRounded_value_iff {d : Decimal} {x : Float} :
    IsRounded x d.value ↔ d.toFloat.isInf = false ∧ d.toFloat = x := by
  have hfinite : d.toFloat.isInf = false ↔ d.value < limit := by
    rw [← not_le, ← isInf_toFloat_iff, Bool.not_eq_true]
  have hrounded := (toFloat_rounds d).1
  rw [hfinite]
  constructor
  · intro h
    exact ⟨h.bounded, (hrounded h.bounded).unique h⟩
  · rintro ⟨h, rfl⟩
    exact hrounded h

end CompressionSweep.Decimal
