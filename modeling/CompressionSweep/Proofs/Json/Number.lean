import CompressionSweep.Document.Printer
import CompressionSweep.Json.Reader
import CompressionSweep.Proofs.Decimal.ReadBack

/-! Numbers are read back from what is written for them: a double from its shortest form, bit for
bit, and a whole number from its digits. -/

namespace CompressionSweep.Json

/-- The text cannot go on with a number that ends in front of it. -/
def EndsNumber (rest : Bytes) : Prop :=
  ∀ b ∈ rest.head?, isDigitByte b = false ∧ b ≠ 0x2E ∧ isExponentLetter b = false

def AllDigits (cs : List Char) : Prop := ∀ c ∈ cs, c.isDigit = true

theorem AllDigits.append {cs ds : List Char} (hc : AllDigits cs) (hd : AllDigits ds) :
    AllDigits (cs ++ ds) := fun c h => (List.mem_append.mp h).elim (hc c) (hd c)

theorem allDigits_digitsOf (n : Nat) : AllDigits (Decimal.digitsOf n) :=
  fun _ h => Nat.isDigit_of_mem_toDigits (by decide) (by decide) h

theorem allDigits_zeros (n : Nat) : AllDigits (List.replicate n '0') := by
  intro c hc
  obtain rfl := List.eq_of_mem_replicate hc
  rfl

theorem digitByte {c : Char} (h : c.isDigit = true) :
    c.toNat.toUInt8.toNat = c.toNat ∧ isDigitByte c.toNat.toUInt8 = true := by
  obtain ⟨hl, hh⟩ := Char.isDigit_iff_toNat.mp h
  change 48 ≤ c.toNat at hl
  change c.toNat ≤ 57 at hh
  have hn : c.toNat.toUInt8.toNat = c.toNat := Nat.mod_eq_of_lt (by omega)
  refine ⟨hn, ?_⟩
  simp only [isDigitByte, Bool.and_eq_true, decide_eq_true_iff, UInt8.le_iff_toNat_le, hn]
  exact ⟨hl, hh⟩

theorem isDigitByte_of_mem_asciiBytes {cs : List Char} (h : AllDigits cs) :
    ∀ b ∈ asciiBytes cs, isDigitByte b = true := by
  intro b hb
  obtain ⟨c, hc, rfl⟩ := List.mem_map.mp hb
  exact (digitByte (h c hc)).2

theorem asciiBytes_append (cs ds : List Char) :
    asciiBytes (cs ++ ds) = asciiBytes cs ++ asciiBytes ds := List.map_append

theorem digitsValue_asciiBytes {cs : List Char} (h : AllDigits cs) :
    digitsValue (asciiBytes cs) = Nat.ofDigitChars 10 cs 0 := by
  unfold digitsValue asciiBytes Nat.ofDigitChars
  rw [List.foldl_map]
  generalize 0 = n
  induction cs generalizing n with
  | nil => rfl
  | cons c cs ih =>
    rw [List.foldl_cons, List.foldl_cons, (digitByte (h c List.mem_cons_self)).1, Nat.mul_comm n]
    exact ih (fun d hd => h d (List.mem_cons_of_mem c hd)) _

theorem takeDigits_append {ds rest : Bytes} (hd : ∀ d ∈ ds, isDigitByte d = true)
    (hr : ∀ b ∈ rest.head?, isDigitByte b = false) : takeDigits (ds ++ rest) = (ds, rest) := by
  unfold takeDigits
  rw [List.takeWhile_append_of_pos hd, List.dropWhile_append_of_pos hd]
  cases rest with
  | nil => simp
  | cons b rest => simp [hr b rfl]

theorem takeDigits_asciiBytes {cs : List Char} {rest : Bytes} (h : AllDigits cs)
    (hr : ∀ b ∈ rest.head?, isDigitByte b = false) :
    takeDigits (asciiBytes cs ++ rest) = (asciiBytes cs, rest) :=
  takeDigits_append (isDigitByte_of_mem_asciiBytes h) hr

theorem floatNumber_of_toFloat {d : Decimal} {x : Float} (hd : d.toFloat = x)
    (hx : x.isFinite = true) (negative : Bool) :
    floatNumber negative d = .ok (.float (signed negative x)) := by
  have hinf : x.isInf = false := by
    rw [Bool.eq_false_iff, ne_eq, Decimal.isInf_iff]
    have := Decimal.isFinite_iff.mp hx
    omega
  simp only [floatNumber, hd, hinf, Bool.false_eq_true, if_false]

def NoLeadingZero (cs : List Char) : Prop := cs ≠ [] ∧ (cs.head? = some '0' → cs = ['0'])

theorem NoLeadingZero.bytes {cs : List Char} (h : NoLeadingZero cs) (hd : AllDigits cs) :
    ∃ b bs, asciiBytes cs = b :: bs ∧ ¬ (b == 0x30 ∧ bs ≠ []) := by
  obtain ⟨hne, hz⟩ := h
  cases cs with
  | nil => exact absurd rfl hne
  | cons c cs =>
    refine ⟨_, _, rfl, fun ⟨hb, hbs⟩ => hbs ?_⟩
    have hn := (digitByte (hd c List.mem_cons_self)).1
    have hb : c.toNat.toUInt8 = 0x30 := eq_of_beq hb
    rw [hb] at hn
    have hc : c = '0' := Char.toNat_inj.mp hn.symm
    rw [(List.cons.inj (hz (congrArg some hc))).2]
    rfl

theorem unsignedNumber_point {whole fraction : List Char} {rest : Bytes} (negative : Bool)
    (hw : AllDigits whole) (hz : NoLeadingZero whole) (hf : AllDigits fraction)
    (hne : fraction ≠ []) (hr : ∀ b ∈ rest.head?, isDigitByte b = false) :
    unsignedNumber negative (asciiBytes (whole ++ '.' :: fraction) ++ rest) =
      scaledNumber negative (asciiBytes whole) (asciiBytes fraction) true rest := by
  obtain ⟨b, bs, hb, hnz⟩ := hz.bytes hw
  have htext : asciiBytes (whole ++ '.' :: fraction) ++ rest =
      asciiBytes whole ++ 0x2E :: (asciiBytes fraction ++ rest) := by
    rw [asciiBytes_append, List.append_assoc]
    rfl
  have hempty : (asciiBytes fraction).isEmpty = false := by
    cases fraction with
    | nil => exact absurd rfl hne
    | cons => rfl
  have hpoint : ∀ x ∈ (0x2E :: (asciiBytes fraction ++ rest) : Bytes).head?,
      isDigitByte x = false := by
    rintro _ ⟨⟩
    rfl
  unfold unsignedNumber
  rw [htext, takeDigits_asciiBytes hw hpoint]
  dsimp only
  rw [hb]
  dsimp only
  rw [if_neg hnz]
  simp only [takeDigits_asciiBytes hf hr, hempty, Bool.false_eq_true, if_false]

theorem unsignedNumber_whole {whole : List Char} {rest : Bytes} (negative : Bool)
    (hw : AllDigits whole) (hz : NoLeadingZero whole)
    (hr : ∀ b ∈ rest.head?, isDigitByte b = false ∧ b ≠ 0x2E) :
    unsignedNumber negative (asciiBytes whole ++ rest) =
      scaledNumber negative (asciiBytes whole) [] false rest := by
  obtain ⟨b, bs, hb, hnz⟩ := hz.bytes hw
  unfold unsignedNumber
  rw [takeDigits_asciiBytes hw (fun x hx => (hr x hx).1)]
  dsimp only
  rw [hb]
  dsimp only
  rw [if_neg hnz]
  cases rest with
  | nil => rfl
  | cons x rest =>
    have hx := (hr x rfl).2
    split
    · rename_i heq
      exact absurd (List.cons.inj heq).1 hx
    · rfl

theorem scaledNumber_point {whole fraction : List Char} {rest : Bytes} {x : Float}
    (negative : Bool) (hw : AllDigits whole) (hf : AllDigits fraction)
    (hx : Decimal.toFloat ⟨Nat.ofDigitChars 10 (whole ++ fraction) 0, -fraction.length⟩ = x)
    (hfin : x.isFinite = true) (hr : EndsNumber rest) :
    scaledNumber negative (asciiBytes whole) (asciiBytes fraction) true rest =
      .ok (.float (signed negative x), rest) := by
  have hlen : (asciiBytes fraction).length = fraction.length := List.length_map _
  unfold scaledNumber
  rw [← asciiBytes_append, digitsValue_asciiBytes (hw.append hf), hlen]
  dsimp only
  rw [floatNumber_of_toFloat hx hfin]
  cases rest with
  | nil => rfl
  | cons b rest => simp only [(hr b rfl).2.2, Bool.false_eq_true, if_false]; rfl

theorem exponentPart_signed {power : List Char} {rest : Bytes} (minus : Bool)
    (hp : AllDigits power) (hne : power ≠ []) (hr : EndsNumber rest) :
    exponentPart (asciiBytes ((if minus then '-' else '+') :: power) ++ rest) =
      .ok (if minus then -(Nat.ofDigitChars 10 power 0 : Int) else Nat.ofDigitChars 10 power 0,
        rest) := by
  have htake := takeDigits_asciiBytes hp (fun b hb => (hr b hb).1)
  have hdigit : ∃ b bs, asciiBytes power ++ rest = b :: bs ∧ isDigitByte b = true := by
    cases power with
    | nil => exact absurd rfl hne
    | cons c cs => exact ⟨_, _, rfl, (digitByte (hp c List.mem_cons_self)).2⟩
  obtain ⟨b, bs, hb, hbd⟩ := hdigit
  have hvalue := digitsValue_asciiBytes hp
  cases minus
  all_goals
    change exponentPart (_ :: (asciiBytes power ++ rest)) = _
    unfold exponentPart
    rw [hb] at htake ⊢
    simp [hbd, htake, hvalue]

theorem scaledNumber_exponent {whole fraction power : List Char} {rest : Bytes} {x : Float}
    (negative pointed minus : Bool) (hw : AllDigits whole) (hf : AllDigits fraction)
    (hp : AllDigits power) (hne : power ≠ [])
    (hx : Decimal.toFloat ⟨Nat.ofDigitChars 10 (whole ++ fraction) 0,
      (if minus then -(Nat.ofDigitChars 10 power 0 : Int) else Nat.ofDigitChars 10 power 0)
        - fraction.length⟩ = x)
    (hfin : x.isFinite = true) (hr : EndsNumber rest) :
    scaledNumber negative (asciiBytes whole) (asciiBytes fraction) pointed
      (asciiBytes ('e' :: (if minus then '-' else '+') :: power) ++ rest) =
      .ok (.float (signed negative x), rest) := by
  have hlen : (asciiBytes fraction).length = fraction.length := List.length_map _
  change scaledNumber _ _ _ _
    (0x65 :: (asciiBytes ((if minus then '-' else '+') :: power) ++ rest)) = _
  unfold scaledNumber
  rw [← asciiBytes_append, digitsValue_asciiBytes (hw.append hf), hlen]
  dsimp only
  rw [if_pos (by decide), exponentPart_signed minus hp hne hr]
  simp only [bind, Except.bind, floatNumber_of_toFloat hx hfin]
  rfl

theorem head?_digitsOf {n : Nat} (h : n ≠ 0) : (Decimal.digitsOf n).head? ≠ some '0' := by
  unfold Decimal.digitsOf
  induction n using Nat.strongRecOn with
  | ind n ih =>
    rw [Nat.toDigits_eq_if (by decide)]
    split
    · simpa using h
    · have hh := ih (n / 10) (by omega) (by omega)
      rw [List.head?_append]
      cases he : (Nat.toDigits 10 (n / 10)).head? with
      | none => exact absurd (List.head?_eq_none_iff.mp he) Nat.toDigits_ne_nil
      | some c => simpa [he] using hh

theorem noLeadingZero_digitsOf (n : Nat) : NoLeadingZero (Decimal.digitsOf n) := by
  refine ⟨Nat.toDigits_ne_nil, fun h => ?_⟩
  by_cases hz : n = 0
  · subst hz; rfl
  · exact absurd h (head?_digitsOf hz)

theorem noLeadingZero_append {cs ds : List Char} (hne : cs ≠ []) (h : cs.head? ≠ some '0') :
    NoLeadingZero (cs ++ ds) := by
  cases cs with
  | nil => exact absurd rfl hne
  | cons c cs => exact ⟨List.cons_ne_nil _ _, fun hh => absurd hh h⟩

theorem EndsNumber.noDigit {rest : Bytes} (h : EndsNumber rest) :
    ∀ b ∈ rest.head?, isDigitByte b = false := fun b hb => (h b hb).1

section Forms

variable {ds : List Char} {c : Nat} {e : Int} {x : Float} {rest : Bytes} (negative : Bool)
  (hd : AllDigits ds) (hne : ds ≠ []) (hhead : ds.head? ≠ some '0')
  (hvalue : Nat.ofDigitChars 10 ds 0 = c) (hx : Decimal.toFloat ⟨c, e⟩ = x)
  (hfin : x.isFinite = true) (hr : EndsNumber rest)

include hd hne hhead hvalue hx hfin hr

theorem unsignedNumber_padded {k : Nat} (hk : e = k) :
    unsignedNumber negative (asciiBytes (ds ++ List.replicate k '0' ++ ['.', '0']) ++ rest) =
      .ok (.float (signed negative x), rest) := by
  have hw : AllDigits (ds ++ List.replicate k '0') := hd.append (allDigits_zeros k)
  have hnz : NoLeadingZero (ds ++ List.replicate k '0') := noLeadingZero_append hne hhead
  rw [show (['.', '0'] : List Char) = '.' :: List.replicate 1 '0' from rfl,
    unsignedNumber_point negative hw hnz (allDigits_zeros 1) (List.cons_ne_nil _ _) hr.noDigit]
  refine scaledNumber_point negative hw (allDigits_zeros 1) ?_ hfin hr
  rw [Nat.ofDigitChars_append, Nat.ofDigitChars_append, hvalue, Nat.ofDigitChars_replicate_zero,
    Nat.ofDigitChars_replicate_zero, ← Nat.mul_assoc, ← Nat.pow_add, Nat.mul_comm,
    Decimal.toFloat_mul_pow, ← hx, hk]
  congr 2
  simp only [List.length_replicate]
  omega

theorem unsignedNumber_inside {k : Nat} (hpos : 0 < k) (hlt : k < ds.length)
    (hk : e = k - ds.length) :
    unsignedNumber negative (asciiBytes (ds.take k ++ '.' :: ds.drop k) ++ rest) =
      .ok (.float (signed negative x), rest) := by
  have hw : AllDigits (ds.take k) := fun a ha => hd a (List.mem_of_mem_take ha)
  have hf : AllDigits (ds.drop k) := fun a ha => hd a (List.mem_of_mem_drop ha)
  have hwne : ds.take k ≠ [] := fun he => (List.take_eq_nil_iff.mp he).elim (by omega) hne
  have hwhead : (ds.take k).head? ≠ some '0' := by rwa [List.head?_take, if_neg (by omega)]
  have hnz : NoLeadingZero (ds.take k) := by
    simpa only [List.append_nil] using @noLeadingZero_append _ [] hwne hwhead
  have hfne : ds.drop k ≠ [] := fun he => by
    have := List.drop_eq_nil_iff.mp he
    omega
  rw [unsignedNumber_point negative hw hnz hf hfne hr.noDigit]
  refine scaledNumber_point negative hw hf ?_ hfin hr
  rw [List.take_append_drop, hvalue, ← hx, hk]
  congr 2
  simp only [List.length_drop]
  omega

omit hhead in
theorem unsignedNumber_small {k : Nat} (hk : e = -(k : Int) - ds.length) :
    unsignedNumber negative (asciiBytes ('0' :: '.' :: List.replicate k '0' ++ ds) ++ rest) =
      .ok (.float (signed negative x), rest) := by
  have hf : AllDigits (List.replicate k '0' ++ ds) := (allDigits_zeros k).append hd
  have hfne : List.replicate k '0' ++ ds ≠ [] := fun he => hne (List.append_eq_nil_iff.mp he).2
  have hw : AllDigits ['0'] := allDigits_zeros 1
  change unsignedNumber negative
    (asciiBytes (['0'] ++ '.' :: (List.replicate k '0' ++ ds)) ++ rest) = _
  rw [unsignedNumber_point negative hw ⟨List.cons_ne_nil _ _, fun _ => rfl⟩ hf hfne hr.noDigit]
  refine scaledNumber_point negative hw hf ?_ hfin hr
  rw [← List.append_assoc, Nat.ofDigitChars_append]
  have hzero : Nat.ofDigitChars 10 (['0'] ++ List.replicate k '0') 0 = 0 := by
    rw [Nat.ofDigitChars_append, Nat.ofDigitChars_replicate_zero]
    rfl
  rw [hzero, hvalue, ← hx, hk]
  congr 2
  simp only [List.length_append, List.length_replicate]
  omega

end Forms

/-- The digits `power` after an exponent letter and a sign stand for the exponent `e`. -/
def IsPower (minus : Bool) (power : List Char) (e : Int) : Prop :=
  AllDigits power ∧ power ≠ [] ∧ e = if minus then -(Nat.ofDigitChars 10 power 0 : Int)
    else Nat.ofDigitChars 10 power 0

theorem isPower_digitsOf (minus : Bool) (n : Nat) :
    IsPower minus (Decimal.digitsOf n) (if minus then -(n : Int) else n) :=
  ⟨allDigits_digitsOf n, Nat.toDigits_ne_nil, by
    rw [Decimal.digitsOf, Nat.ofDigitChars_ten_toDigits]⟩

theorem unsignedNumber_scientific {d : Char} {ds power : List Char} {c : Nat} {e : Int} {x : Float}
    {rest : Bytes} (negative minus : Bool) (hd : AllDigits (d :: ds))
    (hhead : (d :: ds).head? ≠ some '0') (hvalue : Nat.ofDigitChars 10 (d :: ds) 0 = c)
    (hx : Decimal.toFloat ⟨c, e⟩ = x) (hfin : x.isFinite = true)
    (hp : IsPower minus power (e + ds.length)) (hr : EndsNumber rest) :
    unsignedNumber negative (asciiBytes (d :: (if ds = [] then [] else '.' :: ds) ++
      'e' :: (if minus then '-' else '+') :: power) ++ rest) =
      .ok (.float (signed negative x), rest) := by
  obtain ⟨hpd, hpne, he⟩ := hp
  have hw : AllDigits [d] := fun a ha => hd a (by simp_all)
  have hnz : NoLeadingZero [d] := @noLeadingZero_append [d] [] (List.cons_ne_nil d []) hhead
  have hf : AllDigits ds := fun a ha => hd a (List.mem_cons_of_mem d ha)
  have hend : ∀ b ∈ (asciiBytes ('e' :: (if minus then '-' else '+') :: power) ++ rest).head?,
      isDigitByte b = false ∧ b ≠ 0x2E := by
    rintro _ ⟨⟩
    exact ⟨rfl, by decide⟩
  have hdecimal : Decimal.toFloat ⟨Nat.ofDigitChars 10 ([d] ++ ds) 0,
      (if minus then -(Nat.ofDigitChars 10 power 0 : Int) else Nat.ofDigitChars 10 power 0)
        - ds.length⟩ = x := by
    rw [List.singleton_append, hvalue, ← he, ← hx]
    congr 2
    omega
  rw [asciiBytes_append, List.append_assoc]
  by_cases hds : ds = []
  · subst hds
    change unsignedNumber negative (asciiBytes [d] ++ _) = _
    rw [unsignedNumber_whole negative hw hnz hend]
    change scaledNumber negative (asciiBytes [d]) (asciiBytes []) false _ = _
    exact scaledNumber_exponent negative false minus hw hf hpd hpne hdecimal hfin hr
  · rw [if_neg hds]
    change unsignedNumber negative (asciiBytes ([d] ++ '.' :: ds) ++ _) = _
    rw [unsignedNumber_point negative hw hnz hf hds (fun b hb => (hend b hb).1)]
    exact scaledNumber_exponent negative true minus hw hf hpd hpne hdecimal hfin hr

theorem pointed_scientific {d : Char} {ds : List Char} {point : Int}
    (hpos : ¬ (0 < point ∧ point ≤ 16)) (hsmall : ¬ (-5 < point ∧ point ≤ 0)) :
    Decimal.pointed (d :: ds) point = d :: (if ds = [] then [] else '.' :: ds) ++
      'e' :: (if 0 ≤ point - 1 then '+' else '-') :: Decimal.digitsOf (point - 1).natAbs := by
  rw [Decimal.pointed, if_neg hpos, if_neg hsmall]
  cases ds <;> rfl

theorem unsignedNumber_pointed {c : Nat} {e : Int} {x : Float} {rest : Bytes} (negative : Bool)
    (hc : c ≠ 0) (hx : Decimal.toFloat ⟨c, e⟩ = x) (hfin : x.isFinite = true)
    (hr : EndsNumber rest) :
    unsignedNumber negative (asciiBytes (Decimal.pointed (Decimal.digitsOf c)
      ((Decimal.digitsOf c).length + e)) ++ rest) = .ok (.float (signed negative x), rest) := by
  have hd := allDigits_digitsOf c
  have hne : Decimal.digitsOf c ≠ [] := Nat.toDigits_ne_nil
  have hhead := head?_digitsOf hc
  have hvalue : Nat.ofDigitChars 10 (Decimal.digitsOf c) 0 = c := Nat.ofDigitChars_ten_toDigits
  generalize Decimal.digitsOf c = ds at *
  -- The point stands inside or behind the digits, shortly in front of them, or far away.
  by_cases hpos : 0 < ds.length + e ∧ ds.length + e ≤ 16
  · rw [Decimal.pointed, if_pos hpos]
    dsimp only
    split
    · exact unsignedNumber_padded negative hd hne hhead hvalue hx hfin hr (by omega)
    · exact unsignedNumber_inside negative hd hne hhead hvalue hx hfin hr (by omega) (by omega)
        (by omega)
  by_cases hsmall : -5 < ds.length + e ∧ ds.length + e ≤ 0
  · rw [Decimal.pointed, if_neg hpos, if_pos hsmall]
    exact unsignedNumber_small negative hd hne hvalue hx hfin hr (by omega)
  obtain ⟨d, ds, rfl⟩ := List.exists_cons_of_ne_nil hne
  have hlen : (d :: ds).length = ds.length + 1 := rfl
  rw [pointed_scientific hpos hsmall]
  by_cases hsign : 0 ≤ ((d :: ds).length + e - 1 : Int)
  · rw [if_pos hsign]
    refine unsignedNumber_scientific negative false hd hhead hvalue hx hfin ?_ hr
    convert isPower_digitsOf false _ using 1
    simp only [Bool.false_eq_true, if_false]
    omega
  · rw [if_neg hsign]
    refine unsignedNumber_scientific negative true hd hhead hvalue hx hfin ?_ hr
    convert isPower_digitsOf true _ using 1
    simp only [if_true]
    omega

theorem toFloat_zero (e : Int) : Decimal.toFloat ⟨0, e⟩ = Float.ofBits 0 := by
  rw [Decimal.toFloat, if_pos rfl]
  decide

theorem unsignedNumber_decimal {d : Decimal} {x : Float} {rest : Bytes} (negative : Bool)
    (hx : d.toFloat = x) (hz : Decimal.magnitudeBits x ≠ 0) (hfin : x.isFinite = true)
    (hr : EndsNumber rest) :
    unsignedNumber negative (asciiBytes (Decimal.pointed (Decimal.digitsOf d.coefficient)
      ((Decimal.digitsOf d.coefficient).length + d.exponent)) ++ rest) =
      .ok (.float (signed negative x), rest) := by
  obtain ⟨c, e⟩ := d
  refine unsignedNumber_pointed negative ?_ hx hfin hr
  rintro rfl
  rw [← hx, toFloat_zero] at hz
  exact hz (by decide)

theorem unsignedNumber_magnitude {x : Float} {rest : Bytes} (negative : Bool)
    (h : x.isFinite = true) (hr : EndsNumber rest) :
    unsignedNumber negative (asciiBytes (if Decimal.magnitudeBits x = 0 then ['0', '.', '0']
      else Decimal.magnitudeChars (Decimal.magnitude x)) ++ rest) =
      .ok (.float (signed negative (Decimal.magnitude x)), rest) := by
  have hfin : (Decimal.magnitude x).isFinite = true := Decimal.isFinite_magnitude h
  by_cases hz : Decimal.magnitudeBits x = 0
  · have hd : AllDigits ['0'] := allDigits_zeros 1
    rw [if_pos hz]
    change unsignedNumber negative (asciiBytes (['0'] ++ '.' :: ['0']) ++ rest) = _
    rw [unsignedNumber_point negative hd ⟨List.cons_ne_nil _ _, fun _ => rfl⟩ hd
      (List.cons_ne_nil _ _) hr.noDigit]
    refine scaledNumber_point negative hd hd ?_ hfin hr
    have hc : Nat.ofDigitChars 10 (['0'] ++ ['0']) 0 = 0 := rfl
    rw [Decimal.magnitude, hz, hc, toFloat_zero]
    rfl
  · rw [if_neg hz]
    have hbits : (Decimal.magnitude x).toBits.toNat = Decimal.magnitudeBits x :=
      Decimal.toBits_magnitude h
    have hlt : Decimal.magnitudeBits x < 2 ^ 63 := Nat.mod_lt _ (by decide)
    have hmag : Decimal.magnitudeBits (Decimal.magnitude x) ≠ 0 := by
      change (Decimal.magnitude x).toBits.toNat % 2 ^ 63 ≠ 0
      omega
    have hneg : Decimal.isNegative (Decimal.magnitude x) = false := by
      rw [Bool.eq_false_iff, ne_eq, Decimal.isNegative_iff]
      omega
    have hx := Decimal.toFloat_shortest hfin hmag hneg
    exact unsignedNumber_decimal negative hx hmag hfin hr

end CompressionSweep.Json
