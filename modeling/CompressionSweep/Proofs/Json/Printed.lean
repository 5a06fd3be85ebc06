import CompressionSweep.Json.Value
import CompressionSweep.Proofs.Json.Items

/-! What is printed is in the grammar: a string with its escapes, and under any layout the items of
a list and the members of an object. -/

namespace CompressionSweep.Json

open String (utf8EncodeChar)

/-! Strings. -/

theorem escapeByte_plain {b : UInt8} (hquote : b ≠ 0x22) (hslash : b ≠ 0x5C)
    (hcontrol : ¬ b < 0x20) : escapeByte b = [b] := by
  have hne : ∀ c : UInt8, c < 0x20 → b ≠ c := by
    rintro c hc rfl
    exact hcontrol hc
  simp [escapeByte, hquote, hslash, hcontrol, hne 0x08 (by decide), hne 0x09 (by decide),
    hne 0x0A (by decide), hne 0x0C (by decide), hne 0x0D (by decide)]

theorem codeText_control {n : Nat} (hn : n < 0x20) :
    CodeText [0x30, 0x30, hexByte (n / 16), hexByte (n % 16)] n := by
  have hzero : HexDigit 0x30 0 := ⟨by decide, .inl rfl⟩
  have hhigh : HexDigit (hexByte (n / 16)) (n / 16) := ⟨by omega, .inl rfl⟩
  have hlow : HexDigit (hexByte (n % 16)) (n % 16) := ⟨by omega, .inl rfl⟩
  have hcode := CodeText.mk hzero hzero hhigh hlow
  have hn : 0 * 4096 + 0 * 256 + n / 16 * 16 + n % 16 = n := by omega
  rwa [hn] at hcode

theorem charText_control {n : Nat} (hn : n < 0x20) :
    CharText ((utf8EncodeChar (Char.ofNat n)).flatMap escapeByte) (Char.ofNat n) := by
  have hall : ∀ n < 0x20, (Char.ofNat n).toNat = n ∧
      ((∃ e ∈ shortEscapes, e.2 = Char.ofNat n ∧
        (utf8EncodeChar (Char.ofNat n)).flatMap escapeByte = [0x5C, e.1]) ∨
      (utf8EncodeChar (Char.ofNat n)).flatMap escapeByte =
        [0x5C, 0x75, 0x30, 0x30, hexByte (n / 16), hexByte (n % 16)]) := by
    decide
  obtain ⟨hcode, ⟨⟨b, c⟩, hmem, rfl, htext⟩ | htext⟩ := hall n hn
  · rw [htext]
    exact .short hmem
  · rw [htext]
    exact .code (by rw [hcode]; exact codeText_control hn)

theorem charText_escaped (c : Char) : CharText ((utf8EncodeChar c).flatMap escapeByte) c := by
  by_cases hquote : c = '"'
  · subst hquote
    exact .short (by decide)
  by_cases hslash : c = '\\'
  · subst hslash
    exact .short (by decide)
  by_cases hcontrol : c.toNat < 0x20
  · have htext := charText_control hcontrol
    rwa [Char.ofNat_toNat] at htext
  · have hplain : (utf8EncodeChar c).flatMap escapeByte = utf8EncodeChar c := by
      have hbyte : ∀ b ∈ utf8EncodeChar c, escapeByte b = [b] := by
        intro b hb
        obtain ⟨hb1, hb2, hb3⟩ := plain_of_mem (by omega) hquote hslash hb
        exact escapeByte_plain hb1 hb2 hb3
      rw [List.flatMap_congr hbyte]
      simp
    rw [hplain]
    exact .plain (by omega) hquote hslash

theorem stringText_textBytes (s : String) : StringText (textBytes s) s := by
  have hchars : ∀ cs : List Char,
      CharsText ((cs.flatMap utf8EncodeChar).flatMap escapeByte) cs := by
    intro cs
    induction cs with
    | nil => exact .nil
    | cons c cs ih =>
      rw [List.flatMap_cons, List.flatMap_append]
      exact .cons (charText_escaped c) ih
  refine ⟨_, hchars s.toList, ?_⟩
  rw [textBytes, Text.utf8_eq_flatMap]
  rfl

/-! Lists and objects. -/

/-- A layout puts nothing but white space between the parts of a value. -/
structure Layout.Blank (l : Layout) : Prop where
  lineStart : ∀ level, IsBlank (l.lineStart level)
  afterColon : IsBlank l.afterColon

theorem Layout.compact_blank : Layout.compact.Blank := ⟨fun _ => isBlank_nil, isBlank_nil⟩

theorem Layout.pretty_blank : Layout.pretty.Blank where
  lineStart := by
    rintro level b (_ | ⟨_, hb⟩)
    · rfl
    · obtain rfl := List.eq_of_mem_replicate hb
      rfl
  afterColon := by
    intro b hb
    obtain rfl := List.mem_singleton.mp hb
    rfl

section Layouts

variable {l : Layout} (hl : l.Blank)

include hl

theorem itemsText_itemsBytes (level close : Nat) (vs : List Value) :
    ItemsText 0x5D false (vs.map (·.bytes l level))
      (Value.itemsBytes l level vs ++ (l.lineStart close ++ [0x5D])) := by
  induction vs with
  | nil => exact .close (hl.lineStart close)
  | cons v vs ih =>
    have hnext := ItemsText.next (p := v.bytes l level) isBlank_nil (hl.lineStart level) ih
    simpa [Value.itemsBytes] using hnext

theorem enclosed_list (level : Nat) (vs : List Value) :
    Enclosed 0x5B 0x5D (vs.map (·.bytes l (level + 1))) ((Value.list vs).bytes l level) := by
  cases vs with
  | nil => exact ⟨[0x5D], .close isBlank_nil, by rw [Value.bytes]⟩
  | cons v vs =>
    have hfirst := ItemsText.first (p := v.bytes l (level + 1)) (hl.lineStart (level + 1))
      (itemsText_itemsBytes hl (level + 1) level vs)
    exact ⟨_, hfirst, by simp [Value.bytes]⟩

/-- The text of a member of an object. -/
def memberBytes (l : Layout) (level : Nat) (m : String × Value) : Bytes :=
  textBytes m.1 ++ 0x3A :: (l.afterColon ++ m.2.bytes l level)

theorem itemsText_membersBytes (level close : Nat) (ms : List (String × Value)) :
    ItemsText 0x7D false (ms.map (memberBytes l level))
      (Value.membersBytes l level ms ++ (l.lineStart close ++ [0x7D])) := by
  induction ms with
  | nil => exact .close (hl.lineStart close)
  | cons m ms ih =>
    have hnext := ItemsText.next (p := memberBytes l level m) isBlank_nil (hl.lineStart level) ih
    simpa [Value.membersBytes, memberBytes] using hnext

theorem enclosed_object (level : Nat) (ms : List (String × Value)) :
    Enclosed 0x7B 0x7D (ms.map (memberBytes l (level + 1))) ((Value.object ms).bytes l level) := by
  cases ms with
  | nil => exact ⟨[0x7D], .close isBlank_nil, by rw [Value.bytes]⟩
  | cons m ms =>
    have hfirst := ItemsText.first (p := memberBytes l (level + 1) m) (hl.lineStart (level + 1))
      (itemsText_membersBytes hl (level + 1) level ms)
    exact ⟨_, hfirst, by simp [Value.bytes, memberBytes]⟩

theorem objectForm_object (level : Nat) (ms : List (String × Value)) :
    ObjectForm (ms.map (fun m => (m.1, m.2.bytes l (level + 1))))
      ((Value.object ms).bytes l level) := by
  refine ⟨_, ?_, enclosed_object hl level ms⟩
  rw [List.forall₂_map_left_iff, List.forall₂_map_right_iff, List.forall₂_same]
  intro m _
  exact ⟨textBytes m.1, stringText_textBytes m.1, [], l.afterColon, isBlank_nil, hl.afterColon, rfl⟩

theorem listText_list {α : Type} {text : α → Bytes → Prop} {value : α → Value} {as : List α}
    {level : Nat} (h : ∀ a ∈ as, text a ((value a).bytes l (level + 1))) :
    ListText text as ((Value.list (as.map value)).bytes l level) := by
  refine ⟨_, ?_, enclosed_list hl level (as.map value)⟩
  rw [List.forall₂_map_right_iff, List.forall₂_map_right_iff, List.forall₂_same]
  exact h

end Layouts

end CompressionSweep.Json
