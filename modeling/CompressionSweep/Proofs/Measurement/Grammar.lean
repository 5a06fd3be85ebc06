import CompressionSweep.Measurement.Line
import Mathlib

/-! The form of a measured line as a grammar. Where it stands, the text is divided into its parts in
one way: no part contains the character at which it ends. -/

namespace CompressionSweep.Line

/-- A text of at least one character, each of which satisfies `p`. -/
def Piece (p : Char → Bool) (s : List Char) : Prop :=
  s ≠ [] ∧ ∀ c ∈ s, p c = true

instance (p : Char → Bool) (s : List Char) : Decidable (Piece p s) :=
  decidable_of_iff (s ≠ [] ∧ s.all p = true) (and_congr_right fun _ => List.all_eq_true)

/-- A fraction as it is written, and its digits. -/
inductive FractionText : List Char → List Char → Prop where
  | absent : FractionText [] []
  | digits {ds : List Char} (h : Piece Text.isDecimalDigit ds) : FractionText ('.' :: ds) ds

/-- A sign as it is written, and whether it is the negative one. -/
inductive SignText : List Char → Bool → Prop where
  | absent : SignText [] false
  | plus : SignText ['+'] false
  | minus : SignText ['-'] true

/-- An exponent as it is written, whether it is negative, and its digits. -/
inductive ExponentText : List Char → Bool → List Char → Prop where
  | absent : ExponentText [] false []
  | digits {e : Char} {sign ds : List Char} {negative : Bool} (he : e = 'e' ∨ e = 'E')
    (hsign : SignText sign negative) (h : Piece Text.isDecimalDigit ds) :
    ExponentText (e :: (sign ++ ds)) negative ds

/-- A number of seconds as it is written: digits, and a fraction and an exponent that may be
absent. -/
inductive SecondsText : List Char → Seconds → Prop where
  | mk {whole fractionText fraction exponentText exponent : List Char} {negative : Bool}
    (hwhole : Piece Text.isDecimalDigit whole) (hfraction : FractionText fractionText fraction)
    (hexponent : ExponentText exponentText negative exponent) :
    SecondsText (whole ++ (fractionText ++ exponentText)) ⟨whole, fraction, negative, exponent⟩

/-- The texts that the form leaves open. -/
structure Parts where
  file : List Char
  configuration : List Char
  seconds : List Char
  bytes : List Char

def Parts.text (p : Parts) : List Char :=
  "Benchmarked ".toList ++ (p.file ++ (" with ".toList ++ (p.configuration ++ (" in ".toList ++
    (p.seconds ++ ("s, size: ".toList ++ (p.bytes ++ " bytes".toList)))))))

structure Parts.Fit (p : Parts) : Prop where
  file : ∃ stem, Piece isNameChar stem ∧ p.file = stem ++ fileSuffix
  configuration : Piece isConfigurationChar p.configuration
  seconds : ∃ s, SecondsText p.seconds s
  bytes : Piece Text.isDecimalDigit p.bytes

/-- At the place `i` of `t` begins a text of the form with the parts `p`. -/
def Parts.StandsAt (p : Parts) (t : List Char) (i : Nat) : Prop :=
  p.Fit ∧ p.text <+: t.drop i

theorem Parts.text_append (p : Parts) (rest : List Char) : p.text ++ rest =
    "Benchmarked ".toList ++ (p.file ++ (" with ".toList ++ (p.configuration ++ (" in ".toList ++
      (p.seconds ++ ("s, size: ".toList ++ (p.bytes ++ (" bytes".toList ++ rest)))))))) := by
  unfold Parts.text
  generalize "Benchmarked ".toList = t₁, " with ".toList = t₂, " in ".toList = t₃,
    "s, size: ".toList = t₄, " bytes".toList = t₅
  simp only [List.append_assoc]

/-! The characters at which the parts end. -/

theorem with_cons (r : List Char) : " with ".toList ++ r = ' ' :: ("with ".toList ++ r) := rfl

theorem in_cons (r : List Char) : " in ".toList ++ r = ' ' :: ("in ".toList ++ r) := rfl

theorem size_cons (r : List Char) : "s, size: ".toList ++ r = 's' :: (", size: ".toList ++ r) := rfl

theorem bytes_cons (r : List Char) : " bytes".toList ++ r = ' ' :: ("bytes".toList ++ r) := rfl

/-- Where a piece ends at a character that is not of its kind, it ends in one place. -/
theorem eq_of_append_eq {p : Char → Bool} {a b r r' : List Char} {c d : Char}
    (ha : ∀ x ∈ a, p x = true) (hb : ∀ x ∈ b, p x = true) (hc : p c = false) (hd : p d = false)
    (h : a ++ c :: r = b ++ d :: r') : a = b ∧ r = r' := by
  have htake := congrArg (List.takeWhile p) h
  rw [List.takeWhile_append_of_pos ha, List.takeWhile_append_of_pos hb,
    List.takeWhile_cons_of_neg (by simp [hc]), List.takeWhile_cons_of_neg (by simp [hd]),
    List.append_nil, List.append_nil] at htake
  subst htake
  exact ⟨rfl, (List.cons.inj (List.append_cancel_left h)).2⟩

theorem Parts.Fit.file_piece {p : Parts} (h : p.Fit) : Piece isNameChar p.file := by
  obtain ⟨stem, ⟨hne, hstem⟩, hfile⟩ := h.file
  have hsuffix : ∀ c ∈ fileSuffix, isNameChar c = true := List.all_eq_true.mp (by decide)
  rw [hfile]
  refine ⟨by simp [hne], fun c hc => ?_⟩
  exact (List.mem_append.mp hc).elim (hstem c) (hsuffix c)

def Seconds.digits (s : Seconds) : List Char :=
  s.whole ++ (s.fraction ++ s.exponent)

theorem SecondsText.digits {text : List Char} {s : Seconds} (h : SecondsText text s) :
    ∀ c ∈ s.digits, Text.isDecimalDigit c = true := by
  cases h with
  | mk hwhole hfraction hexponent =>
    intro c hc
    rcases List.mem_append.mp hc with hc | hc
    · exact hwhole.2 c hc
    rcases List.mem_append.mp hc with hc | hc
    · cases hfraction with
      | absent => cases hc
      | digits hds => exact hds.2 c hc
    · cases hexponent with
      | absent => cases hc
      | digits he hsign hds => exact hds.2 c hc

theorem SecondsText.mem {text : List Char} {s : Seconds} (h : SecondsText text s) {c : Char}
    (hc : c ∈ text) : c ∈ s.digits ∨ c ∈ ['.', 'e', 'E', '+', '-'] := by
  cases h with
  | mk hwhole hfraction hexponent =>
    simp only [Seconds.digits, List.mem_append] at hc ⊢
    rcases hc with hc | hc | hc
    · exact .inl (.inl hc)
    · cases hfraction with
      | absent => cases hc
      | digits =>
        rcases List.mem_cons.mp hc with rfl | hc
        · exact .inr (by decide)
        · exact .inl (.inr (.inl hc))
    · cases hexponent with
      | absent => cases hc
      | digits he hsign =>
        rcases List.mem_cons.mp hc with rfl | hc
        · rcases he with rfl | rfl <;> exact .inr (by decide)
        rcases List.mem_append.mp hc with hc | hc
        · cases hsign with
          | absent => cases hc
          | plus => exact .inr (by rw [List.mem_singleton.mp hc]; decide)
          | minus => exact .inr (by rw [List.mem_singleton.mp hc]; decide)
        · exact .inl (.inr (.inr hc))

theorem SecondsText.mem_of_digits {text : List Char} {s : Seconds} (h : SecondsText text s)
    {c : Char} (hc : c ∈ s.digits) : c ∈ text := by
  cases h with
  | mk hwhole hfraction hexponent =>
    simp only [Seconds.digits, List.mem_append] at hc ⊢
    rcases hc with hc | hc | hc
    · exact .inl hc
    · cases hfraction with
      | absent => cases hc
      | digits => exact .inr (.inl (List.mem_cons_of_mem _ hc))
    · cases hexponent with
      | absent => cases hc
      | digits => exact .inr (.inr (List.mem_cons_of_mem _ (List.mem_append_right _ hc)))

def isSecondsChar (c : Char) : Bool :=
  Text.isDecimalDigit c || ['.', 'e', 'E', '+', '-'].contains c

theorem SecondsText.isSecondsChar {text : List Char} {s : Seconds} (h : SecondsText text s) :
    ∀ c ∈ text, isSecondsChar c = true := by
  intro c hc
  unfold Line.isSecondsChar
  rw [Bool.or_eq_true, List.contains_iff_mem]
  exact (h.mem hc).imp_left (h.digits c)

theorem Parts.Fit.seconds_chars {p : Parts} (h : p.Fit) :
    ∀ c ∈ p.seconds, isSecondsChar c = true := by
  obtain ⟨s, hs⟩ := h.seconds
  exact hs.isSecondsChar

theorem Parts.eq_of_text_append {p q : Parts} (hp : p.Fit) (hq : q.Fit) {r r' : List Char}
    (h : p.text ++ r = q.text ++ r') : p = q := by
  rw [Parts.text_append, Parts.text_append] at h
  replace h := List.append_cancel_left h
  rw [with_cons, with_cons] at h
  obtain ⟨hfile, h⟩ := eq_of_append_eq hp.file_piece.2 hq.file_piece.2 (by decide) (by decide) h
  replace h := List.append_cancel_left h
  rw [in_cons, in_cons] at h
  obtain ⟨hconfiguration, h⟩ :=
    eq_of_append_eq hp.configuration.2 hq.configuration.2 (by decide) (by decide) h
  replace h := List.append_cancel_left h
  rw [size_cons, size_cons] at h
  obtain ⟨hseconds, h⟩ :=
    eq_of_append_eq hp.seconds_chars hq.seconds_chars (by decide) (by decide) h
  replace h := List.append_cancel_left h
  rw [bytes_cons, bytes_cons] at h
  obtain ⟨hbytes, -⟩ := eq_of_append_eq hp.bytes.2 hq.bytes.2 (by decide) (by decide) h
  cases p
  cases q
  simp only at hfile hconfiguration hseconds hbytes
  rw [hfile, hconfiguration, hseconds, hbytes]

theorem Parts.StandsAt.unique {p q : Parts} {t : List Char} {i : Nat} (hp : p.StandsAt t i)
    (hq : q.StandsAt t i) : q = p := by
  obtain ⟨hfit, r, hr⟩ := hp
  obtain ⟨hfit', r', hr'⟩ := hq
  exact Parts.eq_of_text_append hfit' hfit (hr'.trans hr.symm)

end CompressionSweep.Line
