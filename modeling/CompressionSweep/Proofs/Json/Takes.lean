import CompressionSweep.Document.Decoder
import CompressionSweep.Proofs.Json.Number

/-! Readers that take exactly the text of a value, with any white space in front of it: numbers from
their printed form, and the parts that lists and objects are made of. -/

namespace CompressionSweep.Json

variable {α β : Type}

def IsBlank (s : Bytes) : Prop := ∀ b ∈ s, isBlankByte b = true

theorem isBlank_nil : IsBlank [] := fun _ h => absurd h List.not_mem_nil

theorem endsNumber_nil : EndsNumber [] := fun _ h => absurd h (by simp)

/-- The text begins with a byte that is no white space and closes no list. -/
def Opens (s : Bytes) : Prop :=
  ∃ b t, s = b :: t ∧ isBlankByte b = false ∧ (b == 0x5D) = false

/-- The reader gives `a` for the text `b`, after any white space and in front of anything that
cannot go on with a number. -/
structure Takes (r : Reader α) (b : Bytes) (a : α) : Prop where
  opens : Opens b
  reads : ∀ blank rest, IsBlank blank → EndsNumber rest → r (blank ++ b ++ rest) = .ok (a, rest)

theorem bind_of_ok {r : Reader α} {f : α → Reader β} {s t : Bytes} {a : α}
    (h : r s = .ok (a, t)) : (r >>= f) s = f a t := by
  change (r s >>= fun p => f p.1 p.2) = _
  rw [h]
  rfl

theorem dropBlank_append {blank : Bytes} (h : IsBlank blank) (s : Bytes) :
    dropBlank (blank ++ s) = dropBlank s :=
  List.dropWhile_append_of_pos h

theorem dropBlank_cons {b : UInt8} (h : isBlankByte b = false) (s : Bytes) :
    dropBlank (b :: s) = b :: s := by
  simp [dropBlank, h]

theorem peek_of_blank {blank : Bytes} {b : UInt8} (hs : IsBlank blank)
    (hb : isBlankByte b = false) (s : Bytes) :
    peek (blank ++ b :: s) = .ok (some b, b :: s) := by
  unfold peek
  rw [dropBlank_append hs, dropBlank_cons hb]
  rfl

theorem peekValue_of_blank {blank : Bytes} {b : UInt8} (hs : IsBlank blank)
    (hb : isBlankByte b = false) (s : Bytes) :
    peekValue (blank ++ b :: s) = .ok (b, b :: s) :=
  bind_of_ok (peek_of_blank hs hb s)

theorem skipByte_cons (b : UInt8) (s : Bytes) : skipByte (b :: s) = .ok ((), s) := rfl

theorem isBlankByte_of_isDigitByte {b : UInt8} (h : isDigitByte b = true) :
    isBlankByte b = false ∧ (b == 0x2D) = false ∧ (b == 0x5D) = false := by
  refine ⟨?_, ?_, ?_⟩
  · apply Bool.eq_false_iff.mpr
    intro hb
    simp only [isBlankByte, Bool.or_eq_true, beq_iff_eq] at hb
    rcases hb with ((rfl | rfl) | rfl) | rfl <;> exact absurd h (by decide)
  all_goals
    apply Bool.eq_false_iff.mpr
    intro hb
    obtain rfl := eq_of_beq hb
    exact absurd h (by decide)

theorem isDigitByte_head {negative : Bool} {s : Bytes} {p : Number × Bytes}
    (h : unsignedNumber negative s = .ok p) : ∃ b t, s = b :: t ∧ isDigitByte b = true := by
  cases s with
  | nil => exact absurd h (by intro hh; cases hh)
  | cons b t =>
    refine ⟨b, t, rfl, ?_⟩
    cases hb : isDigitByte b with
    | true => rfl
    | false =>
      have htake : takeDigits (b :: t) = ([], b :: t) := by simp [takeDigits, hb]
      unfold unsignedNumber at h
      rw [htake] at h
      cases h

theorem takes_unsigned {cs : List Char} {n : Number} (wanted : Wanted)
    (h : ∀ rest, EndsNumber rest → unsignedNumber false (asciiBytes cs ++ rest) = .ok (n, rest)) :
    Takes (number wanted) (asciiBytes cs) n := by
  refine ⟨?_, fun blank rest hs hr => ?_⟩
  · obtain ⟨b, t, hb, hd⟩ := isDigitByte_head (h [] endsNumber_nil)
    obtain ⟨hblank, _, hclose⟩ := isBlankByte_of_isDigitByte hd
    exact ⟨b, t, by rwa [List.append_nil] at hb, hblank, hclose⟩
  obtain ⟨b, t, hb, hd⟩ := isDigitByte_head (h rest hr)
  obtain ⟨hblank, hminus, _⟩ := isBlankByte_of_isDigitByte hd
  have hn := h rest hr
  rw [List.append_assoc, hb] at *
  refine (bind_of_ok (peekValue_of_blank hs hblank _)).trans ?_
  rw [hminus, hd]
  exact hn

theorem takes_minus {cs : List Char} {n : Number} (wanted : Wanted)
    (h : ∀ rest, EndsNumber rest → unsignedNumber true (asciiBytes cs ++ rest) = .ok (n, rest)) :
    Takes (number wanted) (asciiBytes ('-' :: cs)) n := by
  refine ⟨⟨_, _, rfl, rfl, rfl⟩, fun blank rest hs hr => ?_⟩
  rw [List.append_assoc]
  refine (bind_of_ok (peekValue_of_blank hs (by decide) (asciiBytes cs ++ rest))).trans ?_
  exact h rest hr

theorem takes_f64 {x : Float} (h : x.isFinite = true) :
    Takes f64 (asciiBytes (Decimal.finiteChars x)) x := by
  have hx := Decimal.signed_magnitude h
  have hnumber : Takes (number .f64) (asciiBytes (Decimal.finiteChars x)) (.float x) := by
    unfold Decimal.finiteChars Decimal.withSign
    cases hneg : Decimal.isNegative x
    · rw [hneg] at hx
      simp only [Bool.false_eq_true, if_false] at hx ⊢
      refine takes_unsigned _ (fun rest hr => ?_)
      rw [unsignedNumber_magnitude false h hr]
      exact congrArg (fun y => Except.ok (Number.float y, rest)) hx
    · rw [hneg] at hx
      simp only [if_true] at hx ⊢
      refine takes_minus _ (fun rest hr => ?_)
      rw [unsignedNumber_magnitude true h hr]
      exact congrArg (fun y => Except.ok (Number.float y, rest)) hx
  exact ⟨hnumber.opens, fun blank rest hs hr => bind_of_ok (hnumber.reads blank rest hs hr)⟩

theorem takes_natural {n bound : Nat} (wanted : Wanted) (hn : n < bound)
    (hb : bound ≤ UInt64.size) :
    Takes (natural wanted bound) (asciiBytes (Decimal.digitsOf n)) n := by
  have hd := allDigits_digitsOf n
  have hnumber : Takes (number wanted) (asciiBytes (Decimal.digitsOf n)) (.integer n) := by
    refine takes_unsigned _ (fun rest hr => ?_)
    rw [unsignedNumber_whole false hd (noLeadingZero_digitsOf n)
      (fun b hb => ⟨(hr b hb).1, (hr b hb).2.1⟩)]
    have hvalue : digitsValue (asciiBytes (Decimal.digitsOf n) ++ []) = n := by
      rw [List.append_nil, digitsValue_asciiBytes hd, Decimal.digitsOf,
        Nat.ofDigitChars_ten_toDigits]
    unfold scaledNumber
    rw [hvalue]
    have hwhole : wholeNumber false n = .ok (.integer n) := if_pos (Nat.lt_of_lt_of_le hn hb)
    cases rest with
    | nil => simp [hwhole, bind, Except.bind, pure, Except.pure]
    | cons b rest =>
      simp [(hr b rfl).2.2, hwhole, bind, Except.bind, pure, Except.pure]
  refine ⟨hnumber.opens, fun blank rest hs hr => ?_⟩
  refine (bind_of_ok (hnumber.reads blank rest hs hr)).trans ?_
  simp only
  rw [if_pos ⟨Int.natCast_nonneg n, Int.ofNat_lt.mpr hn⟩]
  rfl

theorem takes_u32 (n : UInt32) : Takes u32 (asciiBytes (Decimal.digitsOf n.toNat)) n := by
  have hn := takes_natural .u32 n.toNat_lt (by decide)
  refine ⟨hn.opens, fun blank rest hs hr => (bind_of_ok (hn.reads blank rest hs hr)).trans ?_⟩
  rw [Nat.toUInt32, UInt32.ofNat_toNat]
  rfl

theorem takes_u64 (n : UInt64) : Takes u64 (asciiBytes (Decimal.digitsOf n.toNat)) n := by
  have hn := takes_natural .u64 n.toNat_lt (by decide)
  refine ⟨hn.opens, fun blank rest hs hr => (bind_of_ok (hn.reads blank rest hs hr)).trans ?_⟩
  rw [Nat.toUInt64, UInt64.ofNat_toNat]
  rfl

theorem takes_optionalText_none : Takes optionalText nullBytes none := by
  refine ⟨⟨_, _, rfl, rfl, rfl⟩, fun blank rest hs _ => ?_⟩
  rw [List.append_assoc]
  exact bind_of_ok (peek_of_blank hs (by decide) _)

/-! Lists and objects. -/

theorem endsNumber_of_blank {blank rest : Bytes} (hs : IsBlank blank) (hr : EndsNumber rest) :
    EndsNumber (blank ++ rest) := by
  cases blank with
  | nil => exact hr
  | cons b blank =>
    rintro _ ⟨⟩
    have hb := hs b List.mem_cons_self
    simp only [isBlankByte, Bool.or_eq_true, beq_iff_eq] at hb
    rcases hb with ((rfl | rfl) | rfl) | rfl <;> decide

theorem endsNumber_cons {b : UInt8} (hd : isDigitByte b = false) (hp : b ≠ 0x2E)
    (he : isExponentLetter b = false) (s : Bytes) : EndsNumber (b :: s) := by
  rintro _ ⟨⟩
  exact ⟨hd, hp, he⟩

theorem Takes.after {r : Reader α} {b rest : Bytes} {a : α} (h : Takes r b a)
    (hr : EndsNumber rest) : r (b ++ rest) = .ok (a, rest) :=
  h.reads [] rest isBlank_nil hr

theorem moreItems_close {blank : Bytes} (first : Bool) (hs : IsBlank blank) (rest : Bytes) :
    moreItems first (blank ++ 0x5D :: rest) = .ok (false, 0x5D :: rest) :=
  bind_of_ok (peek_of_blank hs rfl rest)

theorem moreItems_first {blank s : Bytes} (hs : IsBlank blank) (ho : Opens s) :
    moreItems true (blank ++ s) = .ok (true, s) := by
  obtain ⟨b, t, rfl, hb, hc⟩ := ho
  refine (bind_of_ok (peek_of_blank hs hb t)).trans ?_
  simp only [hc]
  rfl

theorem Opens.append {s : Bytes} (h : Opens s) (rest : Bytes) : Opens (s ++ rest) := by
  obtain ⟨b, t, rfl, hb⟩ := h
  exact ⟨b, t ++ rest, rfl, hb⟩

theorem endList_close (rest : Bytes) : endList (0x5D :: rest) = .ok ((), rest) :=
  bind_of_ok (peek_of_blank isBlank_nil rfl rest)

theorem nextKey_close {blank : Bytes} (first : Bool) (hs : IsBlank blank) (rest : Bytes) :
    nextKey first (blank ++ 0x7D :: rest) = .ok (none, 0x7D :: rest) :=
  bind_of_ok (peek_of_blank hs rfl rest)

theorem Takes.bind_pure {r : Reader α} {b : Bytes} {a : α} (h : Takes r b a) (f : α → β) :
    Takes (r >>= fun a => pure (f a)) b (f a) :=
  ⟨h.opens, fun blank rest hs hr => bind_of_ok (h.reads blank rest hs hr)⟩

theorem takes_colon {r : Reader α} {v blank : Bytes} {a : α} (h : Takes r v a)
    (hblank : IsBlank blank) : Takes (colon >>= fun _ => r) (0x3A :: (blank ++ v)) a := by
  refine ⟨⟨_, _, rfl, rfl, rfl⟩, fun before rest hs hr => ?_⟩
  have hcolon : colon (before ++ 0x3A :: (blank ++ v) ++ rest) = .ok ((), blank ++ v ++ rest) := by
    rw [List.append_assoc]
    exact bind_of_ok (peek_of_blank hs rfl _)
  exact (bind_of_ok hcolon).trans (h.reads blank rest hblank hr)

end CompressionSweep.Json
