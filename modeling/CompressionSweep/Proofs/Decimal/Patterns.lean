import CompressionSweep.Proofs.Decimal.ReadBack

/-! The patterns of the doubles from zero upwards count their values in order. A number lies between
the values of a pattern and its successor, and the nearer of the two is the nearest of all. -/

namespace CompressionSweep.Decimal

/-- Half way between the largest finite double and the next power of two, from where on a number is
rounded to infinity. -/
def limit : ℚ :=
  2 ^ 1024 - 2 ^ 970

/-- The value that the pattern `b` counts, as a whole number. -/
def patternValue (b : Nat) : Nat :=
  if b < 2 ^ 52 then b else (2 ^ 52 + b % 2 ^ 52) * 2 ^ (b / 2 ^ 52 - 1)

theorem scaledValue_eq (x : Float) : scaledValue x = patternValue (magnitudeBits x) := by
  unfold scaledValue patternValue
  simp only [Nat.shiftLeft_eq, Nat.one_mul, Nat.shiftRight_eq_div_pow]

theorem patternValue_mul {e m : Nat} (hm : m ≤ 2 ^ 53) (he : m < 2 ^ 52 → e = 0) :
    patternValue (e * 2 ^ 52 + m) = m * 2 ^ e := by
  unfold patternValue
  rcases Nat.lt_or_ge m (2 ^ 52) with hlow | hlow
  · rw [he hlow, if_pos (by omega)]
    simp
  · rw [if_neg (by omega)]
    rcases Nat.lt_or_eq_of_le hm with hlt | rfl
    · have hmod : (e * 2 ^ 52 + m) % 2 ^ 52 = m - 2 ^ 52 := by omega
      have hdiv : (e * 2 ^ 52 + m) / 2 ^ 52 - 1 = e := by omega
      rw [hmod, hdiv, Nat.add_sub_cancel' hlow]
    · have hmod : (e * 2 ^ 52 + 2 ^ 53) % 2 ^ 52 = 0 := by omega
      have hdiv : (e * 2 ^ 52 + 2 ^ 53) / 2 ^ 52 - 1 = e + 1 := by omega
      rw [hmod, hdiv, Nat.pow_succ]
      omega

theorem exists_unit (b : Nat) :
    ∃ e m, b = e * 2 ^ 52 + m ∧ m < 2 ^ 53 ∧ (m < 2 ^ 52 → e = 0) := by
  rcases Nat.lt_or_ge b (2 ^ 52) with h | h
  · exact ⟨0, b, by omega, by omega, fun _ => rfl⟩
  · exact ⟨b / 2 ^ 52 - 1, b % 2 ^ 52 + 2 ^ 52, by omega, by omega, by omega⟩

theorem patternValue_strictMono : StrictMono patternValue := by
  refine strictMono_nat_of_lt_succ (fun b => ?_)
  obtain ⟨e, m, rfl, hm, he⟩ := exists_unit b
  rw [Nat.add_assoc, patternValue_mul hm.le he, patternValue_mul hm (by omega)]
  exact Nat.mul_lt_mul_of_pos_right (Nat.lt_succ_self m) (Nat.two_pow_pos e)

theorem patternValue_cast_lt {b c : Nat} : (patternValue b : ℚ) < patternValue c ↔ b < c :=
  Nat.cast_lt.trans patternValue_strictMono.lt_iff_lt

theorem patternValue_cast_le {b c : Nat} : (patternValue b : ℚ) ≤ patternValue c ↔ b ≤ c :=
  Nat.cast_le.trans patternValue_strictMono.le_iff_le

/-- The pattern `b` is the nearest to `v` of all patterns, those behind the finite doubles
included. -/
structure Rounds (b : Nat) (v : ℚ) : Prop where
  nearest : ∀ c, |(patternValue b : ℚ) - v| ≤ |(patternValue c : ℚ) - v|
  even : ∀ c, c ≠ b → |(patternValue c : ℚ) - v| = |(patternValue b : ℚ) - v| → Even b

section Between

variable {f : Nat} {v : ℚ}

theorem distance_below (hlow : patternValue f ≤ v) {c : Nat} (h : c ≤ f) :
    |(patternValue c : ℚ) - v| = v - patternValue c := by
  have hc := patternValue_cast_le.mpr h
  rw [abs_of_nonpos (by linarith)]
  ring

theorem distance_above (hhigh : v ≤ patternValue (f + 1)) {c : Nat} (h : f < c) :
    |(patternValue c : ℚ) - v| = patternValue c - v := by
  have hc := patternValue_cast_le.mpr (Nat.succ_le_of_lt h)
  exact abs_of_nonneg (by linarith)

/-- Whichever of the two around `v` is not farther than the other is the nearest of all. -/
theorem rounds_of_between (hlow : patternValue f ≤ v) (hhigh : v ≤ patternValue (f + 1)) {b : Nat}
    (hb : b = f ∨ b = f + 1) (hbelow : |(patternValue b : ℚ) - v| ≤ v - patternValue f)
    (habove : |(patternValue b : ℚ) - v| ≤ patternValue (f + 1) - v)
    (heven : v - patternValue f = patternValue (f + 1) - v → Even b) : Rounds b v := by
  have hf := distance_below hlow (Nat.le_refl f)
  have hf' := distance_above hhigh (Nat.lt_succ_self f)
  constructor
  · intro c
    rcases Nat.lt_or_ge f c with h | h
    · have hc := patternValue_cast_le.mpr (Nat.succ_le_of_lt h)
      rw [distance_above hhigh h]
      linarith
    · have hc := patternValue_cast_le.mpr h
      rw [distance_below hlow h]
      linarith
  · intro c hne heq
    -- A pattern as near as `b` is the other one of the two.
    rcases Nat.lt_or_ge f c with h | h
    · rw [distance_above hhigh h] at heq
      have hc : c ≤ f + 1 := patternValue_cast_le.mp (by linarith)
      obtain rfl : c = f + 1 := Nat.le_antisymm hc h
      obtain rfl : b = f := hb.resolve_right hne.symm
      exact heven (by linarith)
    · rw [distance_below hlow h] at heq
      have hc : f ≤ c := patternValue_cast_le.mp (by linarith)
      obtain rfl : c = f := Nat.le_antisymm h hc
      obtain rfl : b = c + 1 := hb.resolve_left hne.symm
      exact heven (by linarith)

end Between

theorem roundEven_cases (n d : Nat) :
    (roundEven n d = n / d ∧ (2 * (n % d) < d ∨ 2 * (n % d) = d ∧ Even (n / d))) ∨
    (roundEven n d = n / d + 1 ∧ (d < 2 * (n % d) ∨ 2 * (n % d) = d ∧ Even (n / d + 1))) := by
  unfold roundEven
  dsimp only
  simp only [Nat.even_iff]
  split_ifs <;> omega

/-- The bits of the nearest double before the cut at infinity. -/
def roundedBits (n d : Nat) : Nat :=
  let scaled := n <<< 1074
  let e := unitExponent (scaled / d)
  (e <<< 52) + roundEven scaled (d <<< e)

theorem nearestBits_eq (n d : Nat) : nearestBits n d = min (roundedBits n d) infinityBits := rfl

/-- In the unit that is taken for `t`, `t` has 53 digits, or fewer in the smallest unit. -/
theorem div_unit (t : Nat) : t / 2 ^ unitExponent t < 2 ^ 53 ∧
    (t / 2 ^ unitExponent t < 2 ^ 52 → unitExponent t = 0) := by
  have hunit : unitExponent t = t.log2 - 52 := rfl
  constructor
  · rw [Nat.div_lt_iff_lt_mul (Nat.two_pow_pos _), ← Nat.pow_add]
    refine Nat.lt_of_lt_of_le Nat.lt_log2_self (Nat.pow_le_pow_right (by decide) ?_)
    omega
  · intro h
    rw [Nat.div_lt_iff_lt_mul (Nat.two_pow_pos _), ← Nat.pow_add] at h
    by_contra hne
    have hz : t ≠ 0 := by
      rintro rfl
      simp [unitExponent] at hne
    have hlog := (Nat.log2_lt hz).mpr h
    omega

theorem scale_pos : (0 : ℚ) < scale := by
  have h : 0 < scale := by decide +kernel
  exact Nat.cast_pos.mpr h

section Grid

variable {s d e : Nat}

/-- A quotient lies between two neighbours on the grid of a unit, the first of them below it by the
remainder. -/
theorem quotient_between (hd : 0 < d) (hq : s / (d * 2 ^ e) < 2 ^ 53)
    (he : s / (d * 2 ^ e) < 2 ^ 52 → e = 0) :
    (s / d : ℚ) - patternValue (e * 2 ^ 52 + s / (d * 2 ^ e)) = (s % (d * 2 ^ e) : Nat) / d ∧
      (patternValue (e * 2 ^ 52 + s / (d * 2 ^ e) + 1) : ℚ) - s / d =
        (d * 2 ^ e - (s % (d * 2 ^ e) : Nat)) / d := by
  have hd' : (0 : ℚ) < d := Nat.cast_pos.mpr hd
  have hs : ((d * 2 ^ e * (s / (d * 2 ^ e)) + s % (d * 2 ^ e) : Nat) : ℚ) = s := by
    rw [Nat.div_add_mod]
  push_cast at hs
  rw [Nat.add_assoc, patternValue_mul hq.le he, patternValue_mul hq (by omega), ← hs]
  push_cast
  constructor
  · field_simp
    ring
  · field_simp
    ring

theorem rounds_roundEven (hd : 0 < d) (hq : s / (d * 2 ^ e) < 2 ^ 53)
    (he : s / (d * 2 ^ e) < 2 ^ 52 → e = 0) :
    Rounds (e * 2 ^ 52 + roundEven s (d * 2 ^ e)) (s / d) := by
  obtain ⟨hdown, hup⟩ := quotient_between hd hq he
  have hd' : (0 : ℚ) < d := Nat.cast_pos.mpr hd
  have hround := roundEven_cases s (d * 2 ^ e)
  have hrem : s % (d * 2 ^ e) < d * 2 ^ e := Nat.mod_lt s (Nat.mul_pos hd (Nat.two_pow_pos e))
  generalize s / (d * 2 ^ e) = q at *
  generalize s % (d * 2 ^ e) = r at *
  have hrem' : (r : ℚ) ≤ d * 2 ^ e := by exact_mod_cast hrem.le
  have hlow : (patternValue (e * 2 ^ 52 + q) : ℚ) ≤ s / d := by
    rw [← sub_nonneg, hdown]
    positivity
  have hhigh : (s / d : ℚ) ≤ patternValue (e * 2 ^ 52 + q + 1) := by
    rw [← sub_nonneg, hup]
    exact div_nonneg (sub_nonneg.mpr hrem') hd'.le
  have heven : ∀ m, Even (e * 2 ^ 52 + m) ↔ Even m := fun m => by
    simp only [Nat.even_iff]
    omega
  have hhalf : (s / d : ℚ) - patternValue (e * 2 ^ 52 + q) =
      patternValue (e * 2 ^ 52 + q + 1) - s / d → 2 * r = d * 2 ^ e := by
    rw [hdown, hup, div_left_inj' hd'.ne']
    intro h
    have h' : (2 * r : ℚ) = d * 2 ^ e := by linarith
    exact_mod_cast h'
  rcases hround with ⟨hm, hnear⟩ | ⟨hm, hnear⟩
  · have hle : (2 * r : ℚ) ≤ d * 2 ^ e := by exact_mod_cast hnear.elim le_of_lt (fun h => h.1.le)
    have hb := distance_below hlow (Nat.le_refl _)
    rw [hm]
    refine rounds_of_between hlow hhigh (.inl rfl) hb.le ?_ (fun h => (heven q).mpr ?_)
    · rw [hb, hdown, hup]
      exact div_le_div_of_nonneg_right (by linarith) hd'.le
    · exact (hnear.resolve_left (hhalf h).not_lt).2
  · have hle : (d * 2 ^ e : ℚ) ≤ 2 * r := by exact_mod_cast hnear.elim le_of_lt (fun h => h.1.ge)
    have hb := distance_above hhigh (Nat.lt_add_one _)
    rw [hm, ← Nat.add_assoc]
    refine rounds_of_between hlow hhigh (.inr rfl) ?_ hb.le (fun h => ?_)
    · rw [hb, hdown, hup]
      exact div_le_div_of_nonneg_right (by linarith) hd'.le
    · rw [Nat.add_assoc, heven]
      exact (hnear.resolve_left (hhalf h).not_gt).2

end Grid

theorem rounds_roundedBits (n : Nat) {d : Nat} (hd : 0 < d) :
    Rounds (roundedBits n d) (n / d * scale) := by
  have hbits : roundedBits n d = unitExponent (n * scale / d) * 2 ^ 52 +
      roundEven (n * scale) (d * 2 ^ unitExponent (n * scale / d)) := by
    rw [scale, ← shiftLeft_eq_mul, ← Nat.shiftLeft_eq, ← Nat.shiftLeft_eq]
    rfl
  have hv : (n / d * scale : ℚ) = (n * scale : Nat) / d := by
    push_cast
    ring
  obtain ⟨hq, he⟩ := div_unit (n * scale / d)
  rw [Nat.div_div_eq_div_mul] at hq he
  rw [hbits, hv]
  exact rounds_roundEven hd hq he

/-! Where the finite doubles end. -/

theorem limit_eq : limit * scale =
    ((patternValue (infinityBits - 1) : ℚ) + patternValue infinityBits) / 2 := by
  have hlast : patternValue (infinityBits - 1) = (2 ^ 53 - 1) * 2 ^ 2045 := by
    rw [show infinityBits - 1 = 2045 * 2 ^ 52 + (2 ^ 53 - 1) by decide]
    exact patternValue_mul (by decide) (by omega)
  have hnext : patternValue infinityBits = 2 ^ 53 * 2 ^ 2045 := by
    rw [show infinityBits = 2045 * 2 ^ 52 + 2 ^ 53 by decide]
    exact patternValue_mul (by decide) (by omega)
  have hunit : ((2 ^ 2045 : Nat) : ℚ) = 2 * 2 ^ 970 * 2 ^ 1074 := by
    rw [Nat.cast_pow, Nat.cast_ofNat, ← pow_succ', ← pow_add]
  have htop : (2 : ℚ) ^ 1024 = 2 ^ 54 * 2 ^ 970 := (pow_add 2 54 970)
  have hscale : (scale : ℚ) = 2 ^ 1074 := by
    simp only [scale, Nat.shiftLeft_eq, Nat.one_mul, Nat.cast_pow, Nat.cast_ofNat]
  rw [hlast, hnext, limit, hscale, htop, Nat.cast_mul, Nat.cast_mul, hunit]
  generalize (2 : ℚ) ^ 970 = a
  generalize (2 : ℚ) ^ 1074 = b
  norm_num
  ring

theorem Rounds.lt_infinityBits_iff {b : Nat} {v : ℚ} (h : Rounds b v) :
    b < infinityBits ↔ v < limit * scale := by
  have hodd : ¬ Even (infinityBits - 1) := by decide
  have hstep : (patternValue (infinityBits - 1) : ℚ) < patternValue infinityBits :=
    patternValue_cast_lt.mpr (by decide)
  rw [limit_eq]
  constructor
  · intro hb
    by_contra hv
    have hb' := patternValue_cast_le.mpr (Nat.le_sub_one_of_lt hb)
    have hdist : |(patternValue b : ℚ) - v| = v - patternValue b :=
      distance_below (by linarith) le_rfl
    have hnext := h.nearest infinityBits
    rw [hdist, le_abs] at hnext
    have htie : |(patternValue infinityBits : ℚ) - v| = |(patternValue b : ℚ) - v| := by
      rw [hdist, abs_of_nonneg] <;> rcases hnext with hnext | hnext <;> linarith
    have hlast : infinityBits - 1 ≤ b := patternValue_cast_le.mp (by
      rcases hnext with hnext | hnext <;> linarith)
    rw [Nat.le_antisymm hlast (Nat.le_sub_one_of_lt hb)] at hodd
    exact hodd (h.even infinityBits hb.ne' htie)
  · intro hv
    by_contra hb
    have hb' := patternValue_cast_le.mpr (Nat.le_of_not_lt hb)
    have hlast := h.nearest (infinityBits - 1)
    rw [abs_of_nonneg (by linarith : (0 : ℚ) ≤ patternValue b - v), le_abs] at hlast
    rcases hlast with hlast | hlast <;> linarith

end CompressionSweep.Decimal
