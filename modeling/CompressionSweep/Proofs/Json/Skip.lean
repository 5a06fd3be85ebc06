import CompressionSweep.Proofs.Json.Spelling

/-! A value that does not matter is passed over, whatever it is. -/

namespace CompressionSweep.Json

theorem afterString_inside {s : Bytes} (h : InsideText s) (rest : Bytes) :
    afterString (s ++ 0x22 :: rest) = .ok rest := by
  induction h with
  | nil =>
    rw [List.nil_append]
    unfold afterString
    rfl
  | @plain b s hcontrol hquote hslash tail ih =>
    have hlow : ¬ b < 0x20 := by
      rw [UInt8.lt_iff_toNat_lt]
      exact Nat.not_lt.mpr hcontrol
    rw [List.cons_append]
    unfold afterString
    simp [hquote, hslash, hlow, ih]
  | @short b c s h tail ih =>
    rw [List.cons_append, List.cons_append]
    unfold afterString
    simp [shortEscape_of_mem h, ih]
  | code h tail ih =>
    obtain ⟨a, b, c, d, rfl, hcode⟩ := hexValue4_of_codeText h
    have hu : shortEscape 0x75 = none := rfl
    simp only [List.cons_append, List.nil_append]
    unfold afterString
    simp [hu, hcode, ih]

theorem ExponentText.noDigit {exponent rest : Bytes} (h : ExponentText exponent)
    (hr : EndsNumber rest) :
    ∀ b ∈ (exponent ++ rest).head?, isDigitByte b = false ∧ b ≠ 0x2E := by
  cases h with
  | none => exact fun b hb => ⟨(hr b hb).1, (hr b hb).2.1⟩
  | digits hletter _ _ =>
    rintro b ⟨⟩
    rcases hletter with rfl | rfl <;> decide

theorem FractionText.noDigit {fraction s : Bytes} (h : FractionText fraction)
    (hs : ∀ b ∈ s.head?, isDigitByte b = false) :
    ∀ b ∈ (fraction ++ s).head?, isDigitByte b = false := by
  cases h with
  | none => exact hs
  | digits _ =>
    rintro b ⟨⟩
    rfl

def afterSign : Bytes → Bytes
  | [] => []
  | c :: t => if c == 0x2B || c == 0x2D then t else c :: t

/-- What `afterNumber` does behind the fraction. -/
def afterExponent : Bytes → Except Problem Bytes
  | [] => .ok []
  | b :: r =>
    if isExponentLetter b then
      if (takeDigits (afterSign r)).1.isEmpty then .error .invalidNumber
      else .ok (takeDigits (afterSign r)).2
    else .ok (b :: r)

theorem afterExponent_of_exponentText {exponent rest : Bytes} (h : ExponentText exponent)
    (hr : EndsNumber rest) : afterExponent (exponent ++ rest) = .ok rest := by
  cases h with
  | none =>
    cases rest with
    | nil => rfl
    | cons b rest => simp [afterExponent, (hr b rfl).2.2]
  | @digits letter sign ds hletter hsign hds =>
    obtain ⟨hne, hdigits⟩ := hds
    have hl : isExponentLetter letter = true := by rcases hletter with rfl | rfl <;> rfl
    have htake := takeDigits_append hdigits (fun b hb => (hr b hb).1)
    have hsigned : afterSign (sign ++ (ds ++ rest)) = ds ++ rest := by
      rcases hsign with rfl | rfl | rfl
      · obtain ⟨d, ds, rfl⟩ := List.exists_cons_of_ne_nil hne
        have hd := hdigits d List.mem_cons_self
        have hno : ¬ ((d == 0x2B || d == 0x2D) = true) := by
          intro hh
          rcases Bool.or_eq_true_iff.mp hh with hh | hh <;> rw [eq_of_beq hh] at hd <;> cases hd
        exact if_neg hno
      · rfl
      · rfl
    simp [afterExponent, hl, hsigned, htake, hne]

theorem afterNumber_magnitude {b rest : Bytes} (h : MagnitudeText b) (hr : EndsNumber rest) :
    afterNumber (b ++ rest) = .ok rest := by
  cases h with
  | @mk whole fraction exponent hwhole hzero hfraction hexponent =>
    obtain ⟨hne, hdigits⟩ := hwhole
    have hexp := hexponent.noDigit hr
    have hafter := afterExponent_of_exponentText hexponent hr
    have htake : takeDigits (whole ++ (fraction ++ exponent) ++ rest) =
        (whole, fraction ++ (exponent ++ rest)) := by
      rw [List.append_assoc, List.append_assoc]
      exact takeDigits_append hdigits (hfraction.noDigit (fun b hb => (hexp b hb).1))
    obtain ⟨d, more, rfl⟩ := List.exists_cons_of_ne_nil hne
    have hlead : ¬ (d == 0x30 ∧ more ≠ []) := by
      rintro ⟨hd, hmore⟩
      exact hmore (List.cons.inj (hzero (by rw [eq_of_beq hd]; rfl))).2
    unfold afterNumber
    rw [htake]
    dsimp only
    rw [if_neg hlead]
    cases hfraction with
    | none =>
      rw [List.nil_append]
      -- No point begins what is left.
      split
      · rename_i hhead
        exact absurd rfl (hexp 0x2E (by rw [hhead]; rfl)).2
      · generalize exponent ++ rest = u at hafter ⊢
        rcases u with _ | ⟨b, _ | ⟨c, r⟩⟩ <;> exact hafter
    | digits hds =>
      obtain ⟨hne, hdigits⟩ := hds
      have htake := takeDigits_append hdigits (fun b hb => (hexp b hb).1)
      simp only [List.cons_append, htake, List.isEmpty_eq_false_iff.mpr hne, Bool.false_eq_true,
        if_false]
      generalize exponent ++ rest = u at hafter ⊢
      rcases u with _ | ⟨b, _ | ⟨c, r⟩⟩ <;> exact hafter

/-! Steps. -/

/-- What `skipLoop` does behind a value. -/
def resume (fuel : Nat) : List Frame × Bytes → Except Problem Bytes
  | ([], s) => .ok s
  | (f :: fs, s) => skipLoop fuel (f :: fs) s

theorem skipLoop_succ (fuel : Nat) {fs : List Frame} {s : Bytes} {x : List Frame × Bytes}
    (h : skipStep fs s = .ok x) : skipLoop (fuel + 1) fs s = resume fuel x := by
  obtain ⟨fs', t⟩ := x
  rw [skipLoop, h]
  cases fs' <;> rfl

/-- A value is passed over in no more steps than it has bytes; what follows then is what follows a
value inside the frames. -/
def Skipped (v : Bytes) : Prop :=
  ∃ n ≤ v.length, ∀ (fs : List Frame) (blank rest : Bytes) (x : List Frame × Bytes),
    IsBlank blank → EndsNumber rest → afterValue fs rest = .ok x →
    ∀ fuel, skipLoop (fuel + n) fs (blank ++ (v ++ rest)) = resume fuel x

theorem skipped_of_step {b : UInt8} {v : Bytes}
    (h : ∀ fs rest, EndsNumber rest → skipStep fs (b :: (v ++ rest)) = afterValue fs rest) :
    Skipped (b :: v) := by
  refine ⟨1, by simp, fun fs blank rest x hs hr hx fuel => skipLoop_succ fuel ?_⟩
  have hblank : skipStep fs (blank ++ (b :: v ++ rest)) = skipStep fs (b :: (v ++ rest)) := by
    unfold skipStep
    rw [dropBlank_append hs]
    rfl
  rw [hblank, h fs rest hr, hx]

theorem skipped_null : Skipped nullBytes := skipped_of_step (fun _ _ _ => rfl)

theorem skipped_true : Skipped (asciiBytes ['t', 'r', 'u', 'e']) :=
  skipped_of_step (fun _ _ _ => rfl)

theorem skipped_false : Skipped (asciiBytes ['f', 'a', 'l', 's', 'e']) :=
  skipped_of_step (fun _ _ _ => rfl)

theorem skipped_minus {v : Bytes} (h : MagnitudeText v) : Skipped (0x2D :: v) := by
  refine skipped_of_step (fun fs rest hr => ?_)
  have hafter := afterNumber_magnitude h hr
  unfold skipStep
  rw [dropBlank_cons rfl]
  simp [hafter]

theorem skipped_quoted {v : Bytes} (h : QuotedText v) : Skipped v := by
  obtain ⟨inside, hinside, rfl⟩ := h
  refine skipped_of_step (fun fs rest hr => ?_)
  have hafter := afterString_inside hinside rest
  have hdigit : isDigitByte 0x22 = false := rfl
  unfold skipStep
  rw [dropBlank_cons rfl]
  simp [hdigit, hafter]

theorem MagnitudeText.head {v : Bytes} (h : MagnitudeText v) :
    ∃ d more, v = d :: more ∧ isDigitByte d = true := by
  cases h with
  | mk hwhole _ _ _ =>
    obtain ⟨hne, hdigits⟩ := hwhole
    obtain ⟨d, more, rfl⟩ := List.exists_cons_of_ne_nil hne
    exact ⟨d, _, rfl, hdigits d List.mem_cons_self⟩

theorem skipped_number {v : Bytes} (h : MagnitudeText v) : Skipped v := by
  have hnumber := fun rest (hr : EndsNumber rest) => afterNumber_magnitude h hr
  obtain ⟨d, more, rfl, hd⟩ := h.head
  refine skipped_of_step (fun fs rest hr => ?_)
  have hne : ∀ c : UInt8, isDigitByte c = false → (d == c) = false := by
    intro c hc
    apply Bool.eq_false_iff.mpr
    intro heq
    rw [eq_of_beq heq, hc] at hd
    cases hd
  have hafter : afterNumber (d :: (more ++ rest)) = .ok rest := hnumber rest hr
  unfold skipStep
  rw [dropBlank_cons (isBlankByte_of_isDigitByte hd).1]
  simp only [hne 0x6E rfl, hne 0x74 rfl, hne 0x66 rfl, hne 0x2D rfl, hd, hafter,
    Bool.false_eq_true, if_false, if_true]

/-! Lists and objects. -/

/-- `p` is an item of the frame that leads to the value `v`: all of it in a list, what is behind the
colon in an object. -/
structure Leads (f : Frame) (p v : Bytes) : Prop where
  opens : ∃ b s, p = b :: s ∧ isBlankByte b = false ∧ (b == f.close) = false
  short : v.length ≤ p.length
  before : ∀ blank rest, IsBlank blank →
    ∃ blank', IsBlank blank' ∧ f.beforeValue (blank ++ (p ++ rest)) = .ok (blank' ++ (v ++ rest))

theorem endsNumber_items {close : UInt8} (hclose : close = 0x5D ∨ close = 0x7D) {ps : List Bytes}
    {s : Bytes} (h : ItemsText close false ps s) (rest : Bytes) : EndsNumber (s ++ rest) := by
  have hends : EndsNumber (close :: rest) := by
    rcases hclose with rfl | rfl <;> exact endsNumber_cons rfl (by decide) rfl rest
  cases h with
  | close hblank =>
    rw [List.append_assoc]
    exact endsNumber_of_blank hblank hends
  | next hblank _ _ =>
    rw [List.append_assoc]
    exact endsNumber_of_blank hblank (endsNumber_cons rfl (by decide) rfl _)

theorem Frame.close_cases (f : Frame) : f.close = 0x5D ∨ f.close = 0x7D := by
  cases f with
  | list => exact .inl rfl
  | object => exact .inr rfl

theorem afterValue_close (f : Frame) (fs : List Frame) {blank : Bytes} (hs : IsBlank blank)
    (rest : Bytes) : afterValue (f :: fs) (blank ++ f.close :: rest) = afterValue fs rest := by
  rw [afterValue, dropBlank_append hs]
  cases f <;> rfl

theorem afterValue_comma (f : Frame) (fs : List Frame) {blank s t : Bytes} (hs : IsBlank blank)
    (h : f.beforeValue s = .ok t) :
    afterValue (f :: fs) (blank ++ 0x2C :: s) = .ok (f :: fs, t) := by
  have hcomma : dropBlank (0x2C :: s) = 0x2C :: s := rfl
  rw [afterValue, dropBlank_append hs, hcomma]
  simp [h]

/-- All that stands behind an item is passed over, from item to item up to the closing bracket. -/
theorem skipped_items (f : Frame) {ps vs : List Bytes} {s : Bytes}
    (h : ItemsText f.close false ps s)
    (hps : List.Forall₂ (fun p v => Leads f p v ∧ Skipped v) ps vs) :
    ∃ n ≤ s.length, ∀ fs rest x, EndsNumber rest → afterValue fs rest = .ok x →
      ∃ y, afterValue (f :: fs) (s ++ rest) = .ok y ∧
        ∀ fuel, resume (fuel + n) y = resume fuel x := by
  generalize hfirst : false = first at h
  induction h generalizing vs with
  | close hblank =>
    refine ⟨0, Nat.zero_le _, fun fs rest x _ hx => ⟨x, ?_, fun _ => rfl⟩⟩
    rw [List.append_assoc]
    exact (afterValue_close f fs hblank rest).trans hx
  | first => cases hfirst
  | @next blank blank' p s ps hblank hblank' tail ih =>
    obtain ⟨v, vs, ⟨hleads, n, hn, hskip⟩, hvs, rfl⟩ := List.forall₂_cons_left_iff.mp hps
    obtain ⟨m, hm, hrest⟩ := ih hvs rfl
    refine ⟨m + n, ?_, fun fs rest x hr hx => ?_⟩
    · have hshort := hleads.short
      simp only [List.length_append, List.length_cons]
      omega
    · obtain ⟨y, hy, hresume⟩ := hrest fs rest x hr hx
      obtain ⟨blank'', hblank'', hbefore⟩ := hleads.before blank' (s ++ rest) hblank'
      refine ⟨(f :: fs, blank'' ++ (v ++ (s ++ rest))), ?_, fun fuel => ?_⟩
      · simp only [List.append_assoc, List.cons_append]
        exact afterValue_comma f fs hblank hbefore
      · have hends := endsNumber_items f.close_cases tail rest
        have hvalue := hskip (f :: fs) blank'' (s ++ rest) y hblank'' hends hy (fuel + m)
        rw [Nat.add_assoc] at hvalue
        exact hvalue.trans (hresume fuel)

theorem afterOpening_close (f : Frame) (fs : List Frame) {blank : Bytes} (hs : IsBlank blank)
    (rest : Bytes) : afterOpening f fs (blank ++ f.close :: rest) = afterValue fs rest := by
  rw [afterOpening, dropBlank_append hs]
  cases f <;> rfl

theorem afterOpening_item (f : Frame) (fs : List Frame) {blank p v : Bytes} (hs : IsBlank blank)
    (h : Leads f p v) (rest : Bytes) : ∃ blank', IsBlank blank' ∧
      afterOpening f fs (blank ++ (p ++ rest)) = .ok (f :: fs, blank' ++ (v ++ rest)) := by
  obtain ⟨blank', hblank', hbefore⟩ := h.before [] rest isBlank_nil
  obtain ⟨b, t, rfl, hb, hclose⟩ := h.opens
  refine ⟨blank', hblank', ?_⟩
  rw [List.nil_append, List.cons_append] at hbefore
  rw [afterOpening, dropBlank_append hs, List.cons_append, dropBlank_cons hb]
  simp [hclose, hbefore]

/-- A list or an object is passed over if all values in it are. -/
theorem skipped_enclosed {opening : UInt8} (f : Frame)
    (hopening : ∀ fs s, skipStep fs (opening :: s) = afterOpening f fs s) {ps vs : List Bytes}
    {b : Bytes} (h : Enclosed opening f.close ps b)
    (hps : List.Forall₂ (fun p v => Leads f p v ∧ Skipped v) ps vs) : Skipped b := by
  obtain ⟨s, hs, rfl⟩ := h
  cases hs with
  | @close _ blank hblank =>
    refine skipped_of_step (fun fs rest _ => ?_)
    rw [hopening, List.append_assoc]
    exact afterOpening_close f fs hblank rest
  | @first blank p s ps hblank tail =>
    obtain ⟨v, vs, ⟨hleads, n, hn, hskip⟩, hvs, rfl⟩ := List.forall₂_cons_left_iff.mp hps
    obtain ⟨m, hm, hrest⟩ := skipped_items f tail hvs
    refine ⟨m + n + 1, ?_, fun fs before rest x hs hr hx fuel => ?_⟩
    · have hshort := hleads.short
      simp only [List.length_append, List.length_cons]
      omega
    · obtain ⟨y, hy, hresume⟩ := hrest fs rest x hr hx
      obtain ⟨blank', hblank', hafter⟩ := afterOpening_item f fs hblank hleads (s ++ rest)
      have hstep : skipStep fs (before ++ (opening :: (blank ++ (p ++ s)) ++ rest)) =
          .ok (f :: fs, blank' ++ (v ++ (s ++ rest))) := by
        have hblank : skipStep fs (before ++ (opening :: (blank ++ (p ++ s)) ++ rest)) =
            skipStep fs (opening :: (blank ++ (p ++ (s ++ rest)))) := by
          unfold skipStep
          rw [dropBlank_append hs]
          simp
        rw [hblank, hopening, hafter]
      have hends := endsNumber_items f.close_cases tail rest
      calc skipLoop (fuel + (m + n + 1)) fs (before ++ (opening :: (blank ++ (p ++ s)) ++ rest))
        _ = skipLoop (fuel + m + n) (f :: fs) (blank' ++ (v ++ (s ++ rest))) := by
            rw [show fuel + (m + n + 1) = fuel + m + n + 1 by omega]
            exact skipLoop_succ _ hstep
        _ = resume (fuel + m) y := hskip (f :: fs) blank' (s ++ rest) y hblank' hends hy (fuel + m)
        _ = resume fuel x := hresume fuel

theorem opens_of_valueText {v : Bytes} (h : ValueText v) : Opens v := by
  cases h with
  | null => exact ⟨_, _, rfl, rfl, rfl⟩
  | true => exact ⟨_, _, rfl, rfl, rfl⟩
  | false => exact ⟨_, _, rfl, rfl, rfl⟩
  | number h =>
    obtain ⟨d, more, rfl, hd⟩ := h.head
    exact ⟨d, more, rfl, (isBlankByte_of_isDigitByte hd).1, (isBlankByte_of_isDigitByte hd).2.2⟩
  | minus h => exact ⟨_, _, rfl, rfl, rfl⟩
  | string h =>
    obtain ⟨inside, -, rfl⟩ := h
    exact ⟨_, _, rfl, rfl, rfl⟩
  | list _ h =>
    obtain ⟨s, -, rfl⟩ := h
    exact ⟨_, _, rfl, rfl, rfl⟩
  | object _ _ _ h =>
    obtain ⟨s, -, rfl⟩ := h
    exact ⟨_, _, rfl, rfl, rfl⟩

theorem leads_item {v : Bytes} (h : ValueText v) : Leads .list v v where
  opens := opens_of_valueText h
  short := Nat.le_refl _
  before blank _ hs := ⟨blank, hs, rfl⟩

theorem leads_member {key v p : Bytes} (hkey : QuotedText key) (h : KeyedText key v p) :
    Leads .object p v := by
  obtain ⟨inside, hinside, rfl⟩ := hkey
  obtain ⟨blank, blank', hblank, hblank', rfl⟩ := h
  refine ⟨⟨_, _, rfl, rfl, rfl⟩, ?_, fun before rest hs => ⟨blank', hblank', ?_⟩⟩
  · simp only [List.length_append, List.length_cons]
    omega
  · have hafter := afterString_inside hinside (blank ++ 0x3A :: (blank' ++ (v ++ rest)))
    have hquote : ∀ s, dropBlank (0x22 :: s) = 0x22 :: s := fun _ => rfl
    have hcolon : ∀ s, dropBlank (0x3A :: s) = 0x3A :: s := fun _ => rfl
    simp only [List.append_assoc, List.cons_append, List.nil_append, Frame.beforeValue,
      dropBlank_append hs, hquote]
    simp [hafter, dropBlank_append hblank, hcolon, bind, Except.bind]

theorem skipped_of_valueText {v : Bytes} (h : ValueText v) : Skipped v := by
  induction h with
  | null => exact skipped_null
  | true => exact skipped_true
  | false => exact skipped_false
  | number h => exact skipped_number h
  | minus h => exact skipped_minus h
  | string h => exact skipped_quoted h
  | @list ps b values h ih =>
    have hps : List.Forall₂ (fun p v => Leads .list p v ∧ Skipped v) ps ps :=
      List.forall₂_same.mpr (fun p hp => ⟨leads_item (values p hp), ih p hp⟩)
    exact skipped_enclosed .list (fun _ _ => rfl) h hps
  | @object ms ps b keys values members h ih =>
    have hps : List.Forall₂ (fun p v => Leads .object p v ∧ Skipped v) ps (ms.map (·.2)) := by
      clear h
      induction members with
      | nil => exact .nil
      | @cons m p ms ps hm hms ihms =>
        obtain ⟨hkey, hkeys⟩ := List.forall_mem_cons.mp keys
        obtain ⟨hvalue, hvalues⟩ := List.forall_mem_cons.mp values
        obtain ⟨hskip, hskips⟩ := List.forall_mem_cons.mp ih
        exact .cons ⟨leads_member hkey hm, hskip⟩ (ihms hkeys hvalues hskips)
    exact skipped_enclosed .object (fun _ _ => rfl) h hps

/-- Whatever the value is, it is passed over and nothing else. -/
theorem takes_skipValue {v : Bytes} (h : ValueText v) : Takes skipValue v () := by
  refine ⟨opens_of_valueText h, fun blank rest hs hr => ?_⟩
  obtain ⟨n, hn, hskip⟩ := skipped_of_valueText h
  have hloop := hskip [] blank rest ([], rest) hs hr rfl
    ((blank ++ v ++ rest).length + 1 - n)
  have hfuel : (blank ++ v ++ rest).length + 1 - n + n = (blank ++ v ++ rest).length + 1 := by
    simp only [List.length_append]
    omega
  rw [hfuel, ← List.append_assoc] at hloop
  rw [skipValue, hloop]
  rfl

end CompressionSweep.Json
