import CompressionSweep.Text.Utf8
import Mathlib.Data.String.Basic

/-! The bytes of a text, character by character. The order of texts is the order of their bytes. -/

namespace CompressionSweep.Text

open String (utf8EncodeChar)

theorem utf8_eq_flatMap (s : String) : utf8 s = s.toList.flatMap utf8EncodeChar := by
  have hs : utf8 s = (List.utf8Encode s.toList).data.toList := by
    rw [← String.toByteArray_ofList, String.ofList_toList]
    rfl
  rw [hs, List.utf8Encode, List.data_toByteArray]

theorem ofUtf8?_utf8 (s : String) : ofUtf8? (utf8 s) = some s :=
  dif_pos (c := (s.toByteArray).IsValidUTF8) s.isValidUTF8

/-- A character is one byte of the same number, or bytes that are all above those of one byte. -/
theorem mem_utf8EncodeChar {b : UInt8} {c : Char} (h : b ∈ utf8EncodeChar c) :
    utf8EncodeChar c = [b] ∧ b.toNat = c.toNat ∨ 0x80 ≤ b.toNat := by
  have hbyte : ∀ v < 256, (UInt8.ofNat v).toNat = v := fun v hv => by
    rw [UInt8.toNat_ofNat', Nat.mod_eq_of_lt hv]
  have hcode : c.toNat = c.val.toNat := rfl
  rw [hcode]
  unfold utf8EncodeChar at h ⊢
  generalize c.val.toNat = n at h ⊢
  dsimp only at h ⊢
  split_ifs at h ⊢ with hone htwo hthree
  · obtain rfl := List.mem_singleton.mp h
    exact .inl ⟨rfl, hbyte n (by omega)⟩
  all_goals
    right
    simp only [List.mem_cons, List.not_mem_nil, or_false] at h
    rcases h with rfl | h
    · rw [hbyte _ (by omega)]
      omega
  · subst h
    rw [hbyte _ (by omega)]
    omega
  · rcases h with rfl | rfl <;> rw [hbyte _ (by omega)] <;> omega
  · rcases h with rfl | rfl | rfl <;> rw [hbyte _ (by omega)] <;> omega

theorem cons_ofNat_lt {v w : Nat} (hv : v < 256) (hw : w < 256) (s t : Bytes) :
    UInt8.ofNat v :: s < UInt8.ofNat w :: t ↔ v < w ∨ v = w ∧ s < t := by
  rw [List.cons_lt_cons_iff, UInt8.lt_iff_toNat_lt, ← UInt8.toNat_inj, UInt8.toNat_ofNat',
    UInt8.toNat_ofNat', Nat.mod_eq_of_lt hv, Nat.mod_eq_of_lt hw]

/-- The digits of a character of four bytes: a leading one and three in base 64. -/
theorem digits_lt {m n : Nat} (h : m < n) (hn : n < 0x110000) :
    m / 262144 % 8 < n / 262144 % 8 ∨ m / 262144 % 8 = n / 262144 % 8 ∧
      (m / 4096 % 64 < n / 4096 % 64 ∨ m / 4096 % 64 = n / 4096 % 64 ∧
        (m / 64 % 64 < n / 64 % 64 ∨ m / 64 % 64 = n / 64 % 64 ∧ m % 64 < n % 64)) := by
  have hstep : ∀ {a b : Nat}, a < b → a / 64 < b / 64 ∨ a / 64 = b / 64 ∧ a % 64 < b % 64 := by
    omega
  have hpow : ∀ a : Nat, a / 4096 = a / 64 / 64 ∧ a / 262144 = a / 64 / 64 / 64 := by omega
  have hsmall : n / 64 / 64 / 64 < 8 := by omega
  rw [(hpow m).1, (hpow m).2, (hpow n).1, (hpow n).2]
  rcases hstep h with h | ⟨h, hlast⟩
  · rcases hstep h with h | ⟨h, hlast⟩
    · rcases hstep h with h | ⟨h, hlast⟩
      · omega
      · exact .inr ⟨by rw [h], .inl hlast⟩
    · exact .inr ⟨by rw [h], .inr ⟨by rw [h], .inl hlast⟩⟩
  · exact .inr ⟨by rw [h], .inr ⟨by rw [h], .inr ⟨by rw [h], hlast⟩⟩⟩

/-- The bytes of a character come before those of every later one, whatever follows. -/
theorem utf8EncodeChar_append_lt {c d : Char} (h : c < d) (s t : Bytes) :
    utf8EncodeChar c ++ s < utf8EncodeChar d ++ t := by
  have hd : d.val.toNat < 0x110000 := by
    rcases d.valid with hv | hv
    · exact Nat.lt_trans hv (by decide)
    · exact hv.2
  have hcd : c.val.toNat < d.val.toNat := h
  unfold utf8EncodeChar
  generalize c.val.toNat = m at hcd
  generalize d.val.toNat = n at hcd hd
  have hdigits := digits_lt hcd hd
  dsimp only
  -- Characters of different lengths differ in the range of the first byte.
  split_ifs <;> simp (disch := omega) only [List.cons_append, List.nil_append, cons_ofNat_lt]
  all_goals omega

theorem utf8_lt_of_lt {a b : String} (h : a < b) : utf8 a < utf8 b := by
  rw [String.lt_iff_toList_lt] at h
  rw [utf8_eq_flatMap, utf8_eq_flatMap]
  generalize a.toList = as at h
  generalize b.toList = bs at h
  induction h with
  | @nil d bs =>
    obtain ⟨x, xs, hx⟩ := List.exists_cons_of_ne_nil (String.utf8EncodeChar_ne_nil (c := d))
    rw [List.flatMap_nil, List.flatMap_cons, hx]
    exact List.nil_lt_cons x _
  | rel h => exact utf8EncodeChar_append_lt h _ _
  | cons h ih => exact List.append_left_lt ih

theorem utf8_lt_iff {a b : String} : utf8 a < utf8 b ↔ a < b := by
  refine ⟨fun h => ?_, utf8_lt_of_lt⟩
  rcases lt_trichotomy a b with hab | rfl | hba
  · exact hab
  · exact absurd h (List.lt_irrefl _)
  · exact absurd h (List.lt_asymm (utf8_lt_of_lt hba))

end CompressionSweep.Text
