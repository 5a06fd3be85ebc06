import CompressionSweep.Proofs.Json.Grammar
import CompressionSweep.Proofs.Text.ByteOrder

/-! Strings are read back from whatever way they are written. -/

namespace CompressionSweep.Json

open String (utf8EncodeChar)

theorem hexValue_of_hexDigit {b : UInt8} {n : Nat} (h : HexDigit b n) : hexValue b = some n := by
  have hall : ∀ n < 16, hexValue (hexByte n) = some n ∧
      (10 ≤ n → hexValue (hexByte n - 0x20) = some n) := by decide
  obtain ⟨hn, rfl | ⟨hten, rfl⟩⟩ := h
  · exact (hall n hn).1
  · exact (hall n hn).2 hten

theorem hexValue4_of_codeText {hex : Bytes} {n : Nat} (h : CodeText hex n) :
    ∃ a b c d, hex = [a, b, c, d] ∧ hexValue4 a b c d = some n := by
  cases h with
  | mk ha hb hc hd =>
    refine ⟨_, _, _, _, rfl, ?_⟩
    simp [hexValue4, hexValue_of_hexDigit ha, hexValue_of_hexDigit hb, hexValue_of_hexDigit hc,
      hexValue_of_hexDigit hd]

theorem shortEscape_of_mem {b : UInt8} {c : Char} (h : (b, c) ∈ shortEscapes) :
    shortEscape b = some c.toNat.toUInt8 := by
  have hall : ∀ e ∈ shortEscapes, shortEscape e.1 = some e.2.toNat.toUInt8 := by decide
  exact hall (b, c) h

theorem stringBytes_plain {b : UInt8} {s : Bytes} (hq : b ≠ 0x22) (hb : b ≠ 0x5C)
    (hc : ¬ b < 0x20) : stringBytes (b :: s) = consBytes [b] (stringBytes s) := by
  conv => lhs; unfold stringBytes
  simp [hq, hb, hc]

theorem stringBytes_unicode {h₁ h₂ h₃ h₄ : UInt8} {n : Nat} {s : Bytes}
    (hx : hexValue4 h₁ h₂ h₃ h₄ = some n) (hn : n < 0xD800 ∨ 0xDFFF < n) :
    stringBytes (0x5C :: 0x75 :: h₁ :: h₂ :: h₃ :: h₄ :: s) =
      consBytes (charBytes n) (stringBytes s) := by
  have htrail : isTrailSurrogate n = false := by
    simp only [isTrailSurrogate, Bool.and_eq_false_iff, decide_eq_false_iff_not]; omega
  have hlead : isLeadSurrogate n = false := by
    simp only [isLeadSurrogate, Bool.and_eq_false_iff, decide_eq_false_iff_not]; omega
  have hu : shortEscape 0x75 = none := rfl
  conv => lhs; unfold stringBytes
  simp [hu, hx, htrail, hlead]

theorem consBytes_consBytes (a b : Bytes) (x : Except Problem (Bytes × Bytes)) :
    consBytes a (consBytes b x) = consBytes (a ++ b) x := by
  cases x with
  | error p => rfl
  | ok p => simp [consBytes]

theorem consBytes_nil (x : Except Problem (Bytes × Bytes)) : consBytes [] x = x := by
  cases x <;> rfl

theorem stringBytes_bytes {bs : Bytes}
    (h : ∀ b ∈ bs, b ≠ 0x22 ∧ b ≠ 0x5C ∧ ¬ b < 0x20) (s : Bytes) :
    stringBytes (bs ++ s) = consBytes bs (stringBytes s) := by
  induction bs with
  | nil => rw [List.nil_append, consBytes_nil]
  | cons b bs ih =>
    obtain ⟨⟨hquote, hslash, hcontrol⟩, hbs⟩ := List.forall_mem_cons.mp h
    rw [List.cons_append, stringBytes_plain hquote hslash hcontrol, ih hbs, consBytes_consBytes]
    rfl

theorem charBytes_toNat (c : Char) : charBytes c.toNat = utf8EncodeChar c := by
  rw [charBytes, Char.ofNat_toNat, Text.utf8_eq_flatMap]
  simp

/-- Among the bytes of a character that may stand as it is, none is special in a string. -/
theorem plain_of_mem {c : Char} (hcontrol : 0x20 ≤ c.toNat) (hquote : c ≠ '"') (hslash : c ≠ '\\')
    {b : UInt8} (hb : b ∈ utf8EncodeChar c) : b ≠ 0x22 ∧ b ≠ 0x5C ∧ ¬ b < 0x20 := by
  have hcode : b.toNat = c.toNat ∨ 0x80 ≤ b.toNat :=
    (Text.mem_utf8EncodeChar hb).imp And.right id
  have hquote' : c.toNat ≠ 0x22 := fun hh => hquote (Char.toNat_inj.mp hh)
  have hslash' : c.toNat ≠ 0x5C := fun hh => hslash (Char.toNat_inj.mp hh)
  have hlow : (0x20 : UInt8).toNat = 0x20 := rfl
  refine ⟨?_, ?_, ?_⟩
  · rintro rfl
    have hb : (0x22 : UInt8).toNat = 0x22 := rfl
    omega
  · rintro rfl
    have hb : (0x5C : UInt8).toNat = 0x5C := rfl
    omega
  · rw [UInt8.lt_iff_toNat_lt]
    omega

theorem stringBytes_pair {a b c d a' b' c' d' : UInt8} {m n : Nat} {s : Bytes}
    (hx : hexValue4 a b c d = some (0xD800 + m)) (hy : hexValue4 a' b' c' d' = some (0xDC00 + n))
    (hm : m < 0x400) (hn : n < 0x400) :
    stringBytes (0x5C :: 0x75 :: a :: b :: c :: d :: 0x5C :: 0x75 :: a' :: b' :: c' :: d' :: s) =
      consBytes (charBytes (0x10000 + m * 0x400 + n)) (stringBytes s) := by
  have htrail : isTrailSurrogate (0xD800 + m) = false := by
    simp only [isTrailSurrogate, Bool.and_eq_false_iff, decide_eq_false_iff_not]
    omega
  have hlead : isLeadSurrogate (0xD800 + m) = true := by
    simp only [isLeadSurrogate, Bool.and_eq_true, decide_eq_true_eq]
    omega
  have htrail' : isTrailSurrogate (0xDC00 + n) = true := by
    simp only [isTrailSurrogate, Bool.and_eq_true, decide_eq_true_eq]
    omega
  have hcode : (0xD800 + m - 0xD800) * 1024 + (0xDC00 + n - 0xDC00) + 0x10000 =
      0x10000 + m * 0x400 + n := by omega
  have hu : shortEscape 0x75 = none := rfl
  conv => lhs; unfold stringBytes
  simp only [beq_self_eq_true, if_true, hu, hx, hy, htrail, hlead, htrail', hcode,
    Bool.false_eq_true, if_false]
  rfl

/-- The text of a character is read as its bytes, whatever follows. -/
theorem stringBytes_charText {b : Bytes} {c : Char} (h : CharText b c) (s : Bytes) :
    stringBytes (b ++ s) = consBytes (utf8EncodeChar c) (stringBytes s) := by
  cases h with
  | plain hcontrol hquote hslash =>
    exact stringBytes_bytes (fun _ => plain_of_mem hcontrol hquote hslash) s
  | @short b c hmem =>
    have hescape := shortEscape_of_mem hmem
    have hbytes : ∀ e ∈ shortEscapes, utf8EncodeChar e.2 = [e.2.toNat.toUInt8] := by decide
    rw [hbytes (b, c) hmem]
    conv => lhs; unfold stringBytes
    simp [hescape]
  | code hcode =>
    obtain ⟨k, l, m, n, rfl, hx⟩ := hexValue4_of_codeText hcode
    rw [← charBytes_toNat]
    exact stringBytes_unicode hx (c.valid.imp id And.left)
  | pair hlead htrail hm hn hc =>
    obtain ⟨k, l, m, n, rfl, hx⟩ := hexValue4_of_codeText hlead
    obtain ⟨k', l', m', n', rfl, hy⟩ := hexValue4_of_codeText htrail
    rw [← charBytes_toNat, hc]
    exact stringBytes_pair hx hy hm hn

theorem stringBytes_charsText {b : Bytes} {cs : List Char} (h : CharsText b cs) (rest : Bytes) :
    stringBytes (b ++ 0x22 :: rest) = .ok (cs.flatMap utf8EncodeChar, rest) := by
  induction h with
  | nil =>
    rw [List.nil_append]
    unfold stringBytes
    rfl
  | cons head tail ih =>
    rw [List.append_assoc, stringBytes_charText head, ih]
    rfl

theorem stringRest_charsText {b : Bytes} {s : String} (h : CharsText b s.toList) (rest : Bytes) :
    stringRest (b ++ 0x22 :: rest) = .ok (s, rest) := by
  have hbytes := stringBytes_charsText h rest
  rw [← Text.utf8_eq_flatMap] at hbytes
  unfold stringRest
  rw [hbytes]
  dsimp only
  rw [Text.ofUtf8?_utf8]

theorem takes_stringText {b : Bytes} {s : String} (h : StringText b s) : Takes text b s := by
  obtain ⟨inside, hinside, rfl⟩ := h
  refine ⟨⟨_, _, rfl, rfl, rfl⟩, fun blank rest hs _ => ?_⟩
  rw [List.append_assoc, List.cons_append, List.append_assoc]
  refine (bind_of_ok (peekValue_of_blank hs (by decide) _)).trans ?_
  exact stringRest_charsText hinside rest

end CompressionSweep.Json
