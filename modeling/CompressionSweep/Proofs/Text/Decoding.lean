import CompressionSweep.Proofs.Text.ByteOrder

/-! Bytes read as characters. A line end takes part in no longer character, complete or not, so
that what stands before it and what stands behind it can be read apart from each other; and the
bytes of a text are read as that text. -/

namespace CompressionSweep.Text

open String (utf8EncodeChar)

theorem isContinuation_iff (b : UInt8) :
    isContinuation b = true ↔ 0x80 ≤ b.toNat ∧ b.toNat < 0xC0 := by
  simp [isContinuation, UInt8.le_iff_toNat_le, UInt8.lt_iff_toNat_lt]

theorem mayFollow3_iff (a b : UInt8) : mayFollow3 a b = true ↔
    (if a.toNat = 0xE0 then 0xA0 else 0x80) ≤ b.toNat ∧
      b.toNat < (if a.toNat = 0xED then 0xA0 else 0xC0) := by
  have hlow : a = 0xE0 ↔ a.toNat = 0xE0 := by rw [← UInt8.toNat_inj]; rfl
  have hhigh : a = 0xED ↔ a.toNat = 0xED := by rw [← UInt8.toNat_inj]; rfl
  simp only [mayFollow3, beq_iff_eq, hlow, hhigh]
  split_ifs <;> simp [isContinuation_iff, UInt8.le_iff_toNat_le, UInt8.lt_iff_toNat_lt]
  omega

theorem mayFollow4_iff (a b : UInt8) : mayFollow4 a b = true ↔
    (if a.toNat = 0xF0 then 0x90 else 0x80) ≤ b.toNat ∧
      b.toNat < (if a.toNat = 0xF4 then 0x90 else 0xC0) := by
  have hlow : a = 0xF0 ↔ a.toNat = 0xF0 := by rw [← UInt8.toNat_inj]; rfl
  have hhigh : a = 0xF4 ↔ a.toNat = 0xF4 := by rw [← UInt8.toNat_inj]; rfl
  simp only [mayFollow4, beq_iff_eq, hlow, hhigh]
  split_ifs <;> simp [isContinuation_iff, UInt8.le_iff_toNat_le, UInt8.lt_iff_toNat_lt]
  omega

section Leading

variable {a b c d : UInt8} (r : Bytes)

theorem leading_one (ha : a.toNat < 0x80) : leading a r = (Char.ofNat a.toNat, 0) := by
  simp [leading, UInt8.lt_iff_toNat_lt, ha]

theorem leading_two (ha : 0xC2 ≤ a.toNat ∧ a.toNat < 0xE0) (hb : isContinuation b = true) :
    leading a (b :: r) = (Char.ofNat (a.toNat % 32 * 64 + low6 b), 1) := by
  have hone : ¬ a.toNat < 0x80 := by omega
  simp [leading, UInt8.le_iff_toNat_le, UInt8.lt_iff_toNat_lt, hone, ha, hb]

theorem leading_three (ha : 0xE0 ≤ a.toNat ∧ a.toNat < 0xF0) (hb : mayFollow3 a b = true)
    (hc : isContinuation c = true) : leading a (b :: c :: r) =
      (Char.ofNat (a.toNat % 16 * 4096 + low6 b * 64 + low6 c), 2) := by
  have hone : ¬ a.toNat < 0x80 := by omega
  have htwo : ¬ a.toNat < 0xE0 := by omega
  simp [leading, UInt8.le_iff_toNat_le, UInt8.lt_iff_toNat_lt, hone, htwo, ha, hb, hc]

theorem leading_four (ha : 0xF0 ≤ a.toNat ∧ a.toNat < 0xF5) (hb : mayFollow4 a b = true)
    (hc : isContinuation c = true) (hd : isContinuation d = true) : leading a (b :: c :: d :: r) =
      (Char.ofNat (a.toNat % 8 * 262144 + low6 b * 4096 + low6 c * 64 + low6 d), 3) := by
  have hone : ¬ a.toNat < 0x80 := by omega
  have htwo : ¬ a.toNat < 0xE0 := by omega
  have hthree : ¬ a.toNat < 0xF0 := by omega
  simp [leading, UInt8.le_iff_toNat_le, UInt8.lt_iff_toNat_lt, hone, htwo, hthree, ha, hb, hc, hd]

end Leading

/-- A character is the byte it begins with, or it has more bytes and is no character of one. -/
theorem leading_code (a : UInt8) (r : Bytes) : (leading a r).1 = replacement ∨
    ∃ n, (leading a r).1 = Char.ofNat n ∧ (n = a.toNat ∨ 0x80 ≤ n) := by
  unfold leading
  simp only [UInt8.le_iff_toNat_le, UInt8.lt_iff_toNat_lt, Bool.and_eq_true, decide_eq_true_eq,
    UInt8.reduceToNat]
  split_ifs with hone htwo hthree hfour
  · exact .inr ⟨_, rfl, .inl rfl⟩
  · split
    · split_ifs
      · exact .inr ⟨_, rfl, .inr (by omega)⟩
      · exact .inl rfl
    · exact .inl rfl
  · split
    · split_ifs with hb
      · split
        · split_ifs
          · -- Only with the bounds on the second byte is the first digit or the next one positive.
            rw [mayFollow3_iff] at hb
            refine .inr ⟨_, rfl, .inr ?_⟩
            unfold low6
            split_ifs at hb <;> omega
          · exact .inl rfl
        · exact .inl rfl
      · exact .inl rfl
    · exact .inl rfl
  · split
    · split_ifs with hb
      · split
        · split_ifs
          · split
            · split_ifs
              · rw [mayFollow4_iff] at hb
                refine .inr ⟨_, rfl, .inr ?_⟩
                unfold low6
                split_ifs at hb <;> omega
              · exact .inl rfl
            · exact .inl rfl
          · exact .inl rfl
        · exact .inl rfl
      · exact .inl rfl
    · exact .inl rfl
  · exact .inl rfl

theorem leading_append_lineEnd (a : UInt8) (r s : Bytes) :
    leading a (r ++ 0x0A :: s) = leading a r := by
  have hother : isContinuation 0x0A = false := by decide
  have hthree : mayFollow3 a 0x0A = false := by
    unfold mayFollow3
    split_ifs <;> decide
  have hfour : mayFollow4 a 0x0A = false := by
    unfold mayFollow4
    split_ifs <;> decide
  unfold leading
  -- What counts of the bytes behind the first one are the next three.
  rcases r with - | ⟨b, - | ⟨c, - | ⟨d, r⟩⟩⟩ <;> simp [hother, hthree, hfour]

theorem length_leading_le (a : UInt8) (r : Bytes) : (leading a r).2 ≤ r.length := by
  unfold leading
  rcases r with - | ⟨b, - | ⟨c, - | ⟨d, r⟩⟩⟩ <;> simp only [] <;> split_ifs <;> simp

@[simp] theorem lossyChars_nil : lossyChars [] = [] := by
  rw [lossyChars]

theorem lossyChars_cons (a : UInt8) (r : Bytes) :
    lossyChars (a :: r) = (leading a r).1 :: lossyChars (r.drop (leading a r).2) := by
  rw [lossyChars]

theorem lossyChars_eq_nil_iff {b : Bytes} : lossyChars b = [] ↔ b = [] := by
  cases b with
  | nil => simp
  | cons a r => simp [lossyChars_cons]

theorem lossyChars_append_lineEnd (b s : Bytes) :
    lossyChars (b ++ 0x0A :: s) = lossyChars b ++ '\n' :: lossyChars s := by
  induction b using lossyChars.induct with
  | case1 =>
    have hfirst : leading 0x0A s = ('\n', 0) := rfl
    rw [List.nil_append, lossyChars_cons, hfirst, lossyChars_nil]
    rfl
  | case2 a r c taken hleading ih =>
    have htaken : taken ≤ r.length := by
      have hle := length_leading_le a r
      rwa [hleading] at hle
    rw [List.cons_append, lossyChars_cons, lossyChars_cons, leading_append_lineEnd, hleading]
    dsimp only
    rw [List.drop_append_of_le_length htaken, ih, List.cons_append]

theorem ofNat_ne_lineEnd {n : Nat} (h : n ≠ 10) : Char.ofNat n ≠ '\n' := by
  intro heq
  by_cases hn : n.isValidChar
  · have hcode : (Char.ofNat n).toNat = n := by
      rw [Char.ofNat, dif_pos hn]
      rfl
    rw [heq] at hcode
    exact h hcode.symm
  · rw [Char.ofNat, dif_neg hn] at heq
    exact absurd heq (by decide)

theorem leading_ne_lineEnd {a : UInt8} (h : a ≠ 0x0A) (r : Bytes) : (leading a r).1 ≠ '\n' := by
  have ha : a.toNat ≠ 10 := fun heq => h (UInt8.toNat_inj.mp heq)
  rcases leading_code a r with hcode | ⟨n, hcode, hn⟩
  · rw [hcode]
    decide
  · rw [hcode]
    exact ofNat_ne_lineEnd (by omega)

/-- Line ends come from line ends only. -/
theorem lineEnd_not_mem_lossyChars {b : Bytes} (h : 0x0A ∉ b) : '\n' ∉ lossyChars b := by
  induction b using lossyChars.induct with
  | case1 => simp
  | case2 a r c taken hleading ih =>
    obtain ⟨ha, hr⟩ := List.ne_and_not_mem_of_not_mem_cons h
    have hfirst := leading_ne_lineEnd ha.symm r
    have hrest := ih (fun hmem => hr (List.mem_of_mem_drop hmem))
    rw [lossyChars_cons, hleading] at *
    exact List.not_mem_cons_of_ne_of_not_mem hfirst.symm hrest

/-- The bytes of a character are read as that character, whatever follows. -/
theorem lossyChars_utf8EncodeChar (c : Char) (rest : Bytes) :
    lossyChars (utf8EncodeChar c ++ rest) = c :: lossyChars rest := by
  have hvalid : c.val.toNat < 0xD800 ∨ 0xDFFF < c.val.toNat ∧ c.val.toNat < 0x110000 := c.valid
  have hchar : Char.ofNat c.val.toNat = c := Char.ofNat_toNat c
  unfold utf8EncodeChar
  generalize c.val.toNat = n at hvalid hchar
  subst hchar
  have hbyte : ∀ v < 256, (UInt8.ofNat v).toNat = v := fun v hv => by
    rw [UInt8.toNat_ofNat', Nat.mod_eq_of_lt hv]
  have hlow : ∀ v, (UInt8.ofNat (v % 0x40 + 0x80)).toNat = v % 0x40 + 0x80 :=
    fun v => hbyte _ (by omega)
  have hfollows : ∀ v, isContinuation (UInt8.ofNat (v % 0x40 + 0x80)) = true := fun v => by
    rw [isContinuation_iff, hlow]
    omega
  dsimp only
  split_ifs with hone htwo hthree <;>
    simp only [List.cons_append, List.nil_append, lossyChars_cons]
  · have ha := hbyte n (by omega)
    rw [leading_one rest (by omega), ha]
    rfl
  · have ha := hbyte (n / 64 % 0x20 + 0xC0) (by omega)
    have hcode : (n / 64 % 0x20 + 0xC0) % 32 * 64 + (n % 0x40 + 0x80) % 64 = n := by omega
    rw [leading_two _ (by omega) (hfollows n), low6, ha, hlow, hcode]
    rfl
  · have ha := hbyte (n / 4096 % 0x10 + 0xE0) (by omega)
    have hb : mayFollow3 (UInt8.ofNat (n / 4096 % 0x10 + 0xE0))
        (UInt8.ofNat (n / 64 % 0x40 + 0x80)) = true := by
      rw [mayFollow3_iff, ha, hlow]
      split_ifs <;> omega
    have hcode : (n / 4096 % 0x10 + 0xE0) % 16 * 4096 + (n / 64 % 0x40 + 0x80) % 64 * 64 +
        (n % 0x40 + 0x80) % 64 = n := by omega
    rw [leading_three _ (by omega) hb (hfollows n), low6, low6, ha, hlow, hlow, hcode]
    rfl
  · have ha := hbyte (n / 262144 % 0x08 + 0xF0) (by omega)
    have hb : mayFollow4 (UInt8.ofNat (n / 262144 % 0x08 + 0xF0))
        (UInt8.ofNat (n / 4096 % 0x40 + 0x80)) = true := by
      rw [mayFollow4_iff, ha, hlow]
      split_ifs <;> omega
    have hcode : (n / 262144 % 0x08 + 0xF0) % 8 * 262144 + (n / 4096 % 0x40 + 0x80) % 64 * 4096 +
        (n / 64 % 0x40 + 0x80) % 64 * 64 + (n % 0x40 + 0x80) % 64 = n := by omega
    rw [leading_four _ (by omega) hb (hfollows _) (hfollows n), low6, low6, low6, ha, hlow, hlow,
      hlow, hcode]
    rfl

theorem lossy_utf8 (s : String) : lossy (utf8 s) = s := by
  have hchars : ∀ cs : List Char, lossyChars (cs.flatMap utf8EncodeChar) = cs := by
    intro cs
    induction cs with
    | nil => simp
    | cons c cs ih => rw [List.flatMap_cons, lossyChars_utf8EncodeChar, ih]
  rw [lossy, utf8_eq_flatMap, hchars, String.ofList_toList]

end CompressionSweep.Text
