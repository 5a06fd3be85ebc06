import CompressionSweep.Proofs.Measurement.Grammar

/-! Looking for the form in a text: it is found at the leftmost place where it stands, and its parts
are read there. -/

namespace CompressionSweep.Line

theorem after_append (e r : List Char) : after e (e ++ r) = some r := by
  induction e with
  | nil => rfl
  | cons c e ih => simpa [after] using ih

theorem eq_append_of_after {e s r : List Char} (h : after e s = some r) : s = e ++ r := by
  fun_induction after e s with
  | case1 s => exact Option.some.inj h
  | case2 => cases h
  | case3 e s c ih => rw [ih h, List.cons_append]
  | case4 => cases h

section Run

variable {p : Char → Bool} {a r : List Char}

theorem run_append (ha : Piece p a) (hr : ∀ c ∈ r.head?, p c = false) :
    run p (a ++ r) = some (a, r) := by
  have htake : r.takeWhile p = [] ∧ r.dropWhile p = r := by
    cases r with
    | nil => exact ⟨rfl, rfl⟩
    | cons c r => simp [hr c rfl]
  have hpiece : (a ++ r).takeWhile p = a := by
    rw [List.takeWhile_append_of_pos ha.2, htake.1, List.append_nil]
  have hrest : (a ++ r).dropWhile p = r := by
    rw [List.dropWhile_append_of_pos ha.2, htake.2]
  unfold run
  rw [hpiece, hrest]
  split
  · exact absurd rfl ha.1
  · rfl

theorem run_append_cons {c : Char} (ha : Piece p a) (hc : p c = false) (r : List Char) :
    run p (a ++ c :: r) = some (a, c :: r) :=
  run_append ha (fun d hd => by cases hd; exact hc)

theorem run_eq_some {s : List Char} (h : run p s = some (a, r)) : Piece p a ∧ s = a ++ r := by
  unfold run at h
  split at h
  · cases h
  · rename_i hne
    obtain ⟨rfl, rfl⟩ := Prod.mk.inj (Option.some.inj h)
    exact ⟨⟨hne, fun c hc => List.mem_takeWhile_imp hc⟩, List.takeWhile_append_dropWhile.symm⟩

end Run

theorem isFileName_iff {name : List Char} :
    isFileName name = true ↔ ∃ stem, stem ≠ [] ∧ name = stem ++ fileSuffix := by
  unfold isFileName
  rw [Bool.and_eq_true, decide_eq_true_iff, List.isSuffixOf_iff_suffix]
  constructor
  · rintro ⟨hlen, stem, rfl⟩
    refine ⟨stem, ?_, rfl⟩
    rintro rfl
    simp at hlen
  · rintro ⟨stem, hne, rfl⟩
    refine ⟨?_, stem, rfl⟩
    rw [List.length_append]
    exact Nat.lt_add_of_pos_left (List.length_pos_iff.mpr hne)

/-- Behind the letter of an exponent its sign is read, if there is one: no digit is a sign. -/
theorem exponentAt_signed {e d : Char} {sign : List Char} {negative : Bool} (he : e = 'e' ∨ e = 'E')
    (hsign : SignText sign negative) (hd : Text.isDecimalDigit d = true) (r : List Char) :
    exponentAt (e :: (sign ++ d :: r)) =
      (run Text.isDecimalDigit (d :: r)).map (fun (ds, rest) => (negative, ds, rest)) := by
  cases hsign with
  | absent =>
    have hplus : d ≠ '+' := fun h => by subst h; exact absurd hd (by decide)
    have hminus : d ≠ '-' := fun h => by subst h; exact absurd hd (by decide)
    rcases he with rfl | rfl
    all_goals
      simp only [exponentAt, List.nil_append]
      split
      · rename_i h
        exact absurd (List.cons.inj h).1 hplus
      · rename_i h
        exact absurd (List.cons.inj h).1 hminus
      · rfl
  | plus => rcases he with rfl | rfl <;> rfl
  | minus => rcases he with rfl | rfl <;> rfl

theorem exponentAt_append {text ds : List Char} {negative : Bool}
    (h : ExponentText text negative ds) (r : List Char) :
    exponentAt (text ++ 's' :: r) = some (negative, ds, 's' :: r) := by
  cases h with
  | absent => rfl
  | @digits e sign _ _ he hsign hds =>
    have hrun : run Text.isDecimalDigit (ds ++ 's' :: r) = some (ds, 's' :: r) :=
      run_append hds (fun c hc => by cases hc; decide)
    obtain ⟨d, ds, rfl⟩ := List.exists_cons_of_ne_nil hds.1
    have hread := exponentAt_signed he hsign (hds.2 d (List.mem_cons_self ..)) (ds ++ 's' :: r)
    rw [List.cons_append, List.append_assoc, List.cons_append, hread, ← List.cons_append, hrun]
    rfl

theorem exponent_of_exponentAt {e : Char} {t ds r : List Char} {negative : Bool}
    (he : e = 'e' ∨ e = 'E') (h : exponentAt (e :: t) = some (negative, ds, r)) :
    ∃ sign, SignText sign negative ∧ Piece Text.isDecimalDigit ds ∧ t = sign ++ (ds ++ r) := by
  have hrun : ∃ sign u, SignText sign negative ∧ t = sign ++ u ∧
      run Text.isDecimalDigit u = some (ds, r) := by
    rcases he with rfl | rfl
    all_goals
      simp only [exponentAt, Option.map_eq_some_iff] at h
      obtain ⟨_, hrun, heq⟩ := h
      cases heq
      split at hrun
      · exact ⟨['+'], _, .plus, rfl, hrun⟩
      · exact ⟨['-'], _, .minus, rfl, hrun⟩
      · exact ⟨[], _, .absent, rfl, hrun⟩
  obtain ⟨sign, u, hsign, rfl, hrun⟩ := hrun
  obtain ⟨hds, rfl⟩ := run_eq_some hrun
  exact ⟨sign, hsign, hds, rfl⟩

theorem exponentAt_eq_some {s ds r : List Char} {negative : Bool}
    (h : exponentAt s = some (negative, ds, r)) :
    ∃ text, ExponentText text negative ds ∧ s = text ++ r := by
  have hletter : ∀ {e : Char} {t : List Char}, e = 'e' ∨ e = 'E' →
      exponentAt (e :: t) = some (negative, ds, r) →
      ∃ text, ExponentText text negative ds ∧ e :: t = text ++ r := by
    intro e t he h
    obtain ⟨sign, hsign, hds, rfl⟩ := exponent_of_exponentAt he h
    exact ⟨_, .digits he hsign hds, by simp⟩
  have hcopy := h
  unfold exponentAt at h
  split at h
  · exact hletter (.inl rfl) hcopy
  · exact hletter (.inr rfl) hcopy
  · cases h
    exact ⟨[], .absent, rfl⟩

/-- The fraction in front of a text, if one is due: none, or a point and digits. -/
def fractionAt : List Char → Option (List Char × List Char)
  | '.' :: r => run Text.isDecimalDigit r
  | s => some ([], s)

theorem fractionAt_of_ne {s : List Char} (h : ∀ r, s = '.' :: r → False) :
    fractionAt s = some ([], s) := by
  unfold fractionAt
  split
  · exact (h _ rfl).elim
  · rfl

theorem secondsAt_eq (s : List Char) :
    secondsAt s = do
      let (whole, t) ← run Text.isDecimalDigit s
      let (fraction, u) ← fractionAt t
      let (negative, exponent, v) ← exponentAt u
      return (⟨whole, fraction, negative, exponent⟩, v) := by
  unfold secondsAt
  cases run Text.isDecimalDigit s with
  | none => rfl
  | some w =>
    obtain ⟨whole, t⟩ := w
    dsimp only [Option.bind_eq_bind, Option.bind_some]
    split
    · rfl
    · rename_i hne
      rw [fractionAt_of_ne hne]
      rfl

theorem fractionAt_append {text ds r : List Char} (h : FractionText text ds)
    (hr : ∀ c ∈ r.head?, Text.isDecimalDigit c = false ∧ c ≠ '.') :
    fractionAt (text ++ r) = some (ds, r) := by
  cases h with
  | absent =>
    refine fractionAt_of_ne (fun t ht => ?_)
    exact (hr '.' (by rw [← List.nil_append r, ht]; rfl)).2 rfl
  | digits hds => exact run_append hds (fun c hc => (hr c hc).1)

theorem fractionAt_eq_some {s ds r : List Char} (h : fractionAt s = some (ds, r)) :
    ∃ text, FractionText text ds ∧ s = text ++ r := by
  unfold fractionAt at h
  split at h
  · obtain ⟨hds, rfl⟩ := run_eq_some h
    exact ⟨_, .digits hds, rfl⟩
  · cases h
    exact ⟨[], .absent, rfl⟩

theorem secondsAt_append {text : List Char} {s : Seconds} (h : SecondsText text s) (r : List Char) :
    secondsAt (text ++ 's' :: r) = some (s, 's' :: r) := by
  cases h with
  | @mk whole fractionText fraction exponentText exponent negative hwhole hfraction hexponent =>
    have hhead : ∀ c ∈ (exponentText ++ 's' :: r).head?,
        Text.isDecimalDigit c = false ∧ c ≠ '.' := by
      intro c hc
      cases hexponent with
      | absent => cases hc; decide
      | digits he => rcases he with rfl | rfl <;> (cases hc; decide)
    have hhead' : ∀ c ∈ (fractionText ++ (exponentText ++ 's' :: r)).head?,
        Text.isDecimalDigit c = false := by
      cases hfraction with
      | absent => exact fun c hc => (hhead c hc).1
      | digits => intro c hc; cases hc; decide
    simp only [secondsAt_eq, List.append_assoc, run_append hwhole hhead',
      fractionAt_append hfraction hhead, exponentAt_append hexponent, Option.bind_eq_bind,
      Option.bind_some]
    rfl

theorem secondsAt_eq_some {t r : List Char} {s : Seconds} (h : secondsAt t = some (s, r)) :
    ∃ text, SecondsText text s ∧ t = text ++ r := by
  rw [secondsAt_eq] at h
  obtain ⟨⟨whole, u⟩, hwhole, h⟩ := Option.bind_eq_some_iff.mp h
  obtain ⟨⟨fraction, v⟩, hfraction, h⟩ := Option.bind_eq_some_iff.mp h
  obtain ⟨⟨negative, exponent, w⟩, hexponent, h⟩ := Option.bind_eq_some_iff.mp h
  cases h
  obtain ⟨hwhole', rfl⟩ := run_eq_some hwhole
  obtain ⟨fractionText, hfraction', rfl⟩ := fractionAt_eq_some hfraction
  obtain ⟨exponentText, hexponent', rfl⟩ := exponentAt_eq_some hexponent
  exact ⟨_, .mk hwhole' hfraction' hexponent', by simp⟩

theorem fieldsAt_append {p : Parts} (h : p.Fit) {s : Seconds} (hs : SecondsText p.seconds s)
    (rest : List Char) :
    fieldsAt (p.text ++ rest) = some ⟨p.file, p.configuration, s, p.bytes⟩ := by
  have hname : isFileName p.file = true := by
    obtain ⟨stem, hstem, hfile⟩ := h.file
    exact isFileName_iff.mpr ⟨stem, hstem.1, hfile⟩
  have hfile : ∀ r, run isNameChar (p.file ++ (" with ".toList ++ r)) =
      some (p.file, " with ".toList ++ r) := fun r => by
    rw [with_cons]
    exact run_append_cons h.file_piece (by decide) _
  have hconfiguration : ∀ r, run isConfigurationChar (p.configuration ++ (" in ".toList ++ r)) =
      some (p.configuration, " in ".toList ++ r) := fun r => by
    rw [in_cons]
    exact run_append_cons h.configuration (by decide) _
  have hseconds : ∀ r, secondsAt (p.seconds ++ ("s, size: ".toList ++ r)) =
      some (s, "s, size: ".toList ++ r) := fun r => by
    rw [size_cons]
    exact secondsAt_append hs _
  have hbytes : ∀ r, run Text.isDecimalDigit (p.bytes ++ (" bytes".toList ++ r)) =
      some (p.bytes, " bytes".toList ++ r) := fun r => by
    rw [bytes_cons]
    exact run_append_cons h.bytes (by decide) _
  rw [Parts.text_append]
  simp only [fieldsAt, after_append, hfile, hname, hconfiguration, hseconds, hbytes,
    Option.bind_eq_bind, Option.bind_some, Bool.not_true, Bool.false_eq_true, if_false]
  rfl

theorem fieldsAt_eq_some {t : List Char} {f : Fields} (h : fieldsAt t = some f) :
    ∃ p : Parts, p.Fit ∧ p.text <+: t ∧ SecondsText p.seconds f.seconds ∧ p.file = f.file ∧
      p.bytes = f.bytes := by
  unfold fieldsAt at h
  obtain ⟨t₁, h₁, h⟩ := Option.bind_eq_some_iff.mp h
  obtain ⟨⟨file, t₂⟩, hfile, h⟩ := Option.bind_eq_some_iff.mp h
  dsimp only at h
  split at h
  · cases h
  rename_i hname
  obtain ⟨t₃, h₃, h⟩ := Option.bind_eq_some_iff.mp h
  obtain ⟨⟨configuration, t₄⟩, hconfiguration, h⟩ := Option.bind_eq_some_iff.mp h
  dsimp only at h
  obtain ⟨t₅, h₅, h⟩ := Option.bind_eq_some_iff.mp h
  obtain ⟨⟨seconds, t₆⟩, hseconds, h⟩ := Option.bind_eq_some_iff.mp h
  dsimp only at h
  obtain ⟨t₇, h₇, h⟩ := Option.bind_eq_some_iff.mp h
  obtain ⟨⟨bytes, t₈⟩, hbytes, h⟩ := Option.bind_eq_some_iff.mp h
  dsimp only at h
  obtain ⟨rest, h₉, h⟩ := Option.bind_eq_some_iff.mp h
  obtain rfl := Option.some.inj h
  obtain ⟨hfile', rfl⟩ := run_eq_some hfile
  obtain ⟨hconfiguration', rfl⟩ := run_eq_some hconfiguration
  obtain ⟨text, hseconds', rfl⟩ := secondsAt_eq_some hseconds
  obtain ⟨hbytes', rfl⟩ := run_eq_some hbytes
  have hstem : ∃ stem, Piece isNameChar stem ∧ file = stem ++ fileSuffix := by
    obtain ⟨stem, hne, rfl⟩ := isFileName_iff.mp (by simpa using hname)
    exact ⟨stem, ⟨hne, fun c hc => hfile'.2 c (List.mem_append_left _ hc)⟩, rfl⟩
  refine ⟨⟨file, configuration, text, bytes⟩,
    ⟨hstem, hconfiguration', ⟨seconds, hseconds'⟩, hbytes'⟩, ⟨rest, ?_⟩, hseconds', rfl, rfl⟩
  rw [Parts.text_append, eq_append_of_after h₁, eq_append_of_after h₃, eq_append_of_after h₅,
    eq_append_of_after h₇, eq_append_of_after h₉]

theorem SecondsText.unique {text : List Char} {s s' : Seconds} (h : SecondsText text s)
    (h' : SecondsText text s') : s = s' := by
  have heq := (secondsAt_append h []).symm.trans (secondsAt_append h' [])
  exact congrArg Prod.fst (Option.some.inj heq)

/-! The leftmost place. -/

theorem fieldsAt_of_standsAt {p : Parts} {t : List Char} {i : Nat} (h : p.StandsAt t i)
    {s : Seconds} (hs : SecondsText p.seconds s) :
    fieldsAt (t.drop i) = some ⟨p.file, p.configuration, s, p.bytes⟩ := by
  obtain ⟨hfit, rest, hrest⟩ := h
  rw [← hrest]
  exact fieldsAt_append hfit hs rest

theorem fieldsAt_eq_none_iff {t : List Char} {i : Nat} :
    fieldsAt (t.drop i) = none ↔ ∀ p : Parts, ¬ p.StandsAt t i := by
  constructor
  · intro h p hp
    obtain ⟨s, hs⟩ := hp.1.seconds
    cases h.symm.trans (fieldsAt_of_standsAt hp hs)
  · intro h
    by_contra hne
    obtain ⟨f, hf⟩ := Option.ne_none_iff_exists'.mp hne
    obtain ⟨p, hfit, hprefix, -⟩ := fieldsAt_eq_some hf
    exact h p ⟨hfit, hprefix⟩

theorem leftmost_eq_none_iff {t : List Char} :
    leftmost t = none ↔ ∀ i, fieldsAt (t.drop i) = none := by
  induction t with
  | nil =>
    refine ⟨fun _ i => ?_, fun _ => rfl⟩
    rw [List.drop_nil]
    rfl
  | cons c s ih =>
    constructor
    · intro h i
      unfold leftmost at h
      split at h
      · cases h
      · rename_i hfirst
        cases i with
        | zero => exact hfirst
        | succ i => exact ih.mp h i
    · intro h
      have hfirst : fieldsAt (c :: s) = none := h 0
      rw [leftmost, hfirst]
      exact ih.mpr (fun i => h (i + 1))

theorem leftmost_eq_some {t : List Char} {i : Nat} {f : Fields} (h : fieldsAt (t.drop i) = some f)
    (hbefore : ∀ j < i, fieldsAt (t.drop j) = none) : leftmost t = some f := by
  induction t generalizing i with
  | nil =>
    rw [List.drop_nil] at h
    cases h
  | cons c s ih =>
    cases i with
    | zero =>
      have hfirst : fieldsAt (c :: s) = some f := h
      rw [leftmost, hfirst]
    | succ i =>
      have hfirst : fieldsAt (c :: s) = none := hbefore 0 (Nat.succ_pos i)
      rw [leftmost, hfirst]
      exact ih h (fun j hj => hbefore (j + 1) (Nat.succ_lt_succ hj))

end CompressionSweep.Line
