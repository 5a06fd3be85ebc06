import CompressionSweep.Proofs.Decimal.Rounding
import CompressionSweep.Proofs.Measurement.Reading

/-! What a line is taken for: the leftmost place of the form decides, and the numbers that stand
there have their values or the line holds no measurement. -/

namespace CompressionSweep.Line

def Seconds.power (s : Seconds) : ℤ :=
  if s.negativeExponent then -(Nat.ofDigitChars 10 s.exponent 0 : ℤ)
  else Nat.ofDigitChars 10 s.exponent 0

/-- The number that is written. -/
def Seconds.number (s : Seconds) : ℚ :=
  (Nat.ofDigitChars 10 s.whole 0 + Nat.ofDigitChars 10 s.fraction 0 / 10 ^ s.fraction.length) *
    10 ^ s.power

/-- The digits of the numbers are those of ASCII. -/
def Parts.Ascii (p : Parts) : Prop :=
  ∀ c ∈ p.seconds ++ p.bytes, Text.isDecimalDigit c = true → Text.isAsciiDigit c = true

/-- The numbers that are written have values: the seconds round to a finite double, and the bytes
are a number of 64 bits. -/
structure Parts.Representable (p : Parts) : Prop where
  ascii : p.Ascii
  seconds : ∃ s, SecondsText p.seconds s ∧ s.number < Decimal.limit
  bytes : Nat.ofDigitChars 10 p.bytes 0 < 2 ^ 64

/-- The measurement `m` is what is written: the file by its name, the seconds correctly rounded,
the bytes exactly. -/
structure Parts.Denotes (p : Parts) (m : Measurement) : Prop where
  file : m.file.toList = p.file
  seconds : ∃ s, SecondsText p.seconds s ∧ Decimal.IsRounded m.seconds s.number
  bytes : m.bytes.toNat = Nat.ofDigitChars 10 p.bytes 0

theorem digitsValue?_eq (ds : List Char) :
    digitsValue? ds =
      if ds.all Text.isAsciiDigit then some (Nat.ofDigitChars 10 ds 0) else none := by
  unfold digitsValue? Nat.ofDigitChars
  simp only [Nat.mul_comm]
  rfl

theorem decimal?_eq (s : Seconds) :
    s.decimal? = if s.digits.all Text.isAsciiDigit then
      some ⟨Nat.ofDigitChars 10 (s.whole ++ s.fraction) 0, s.power - s.fraction.length⟩
    else none := by
  unfold Seconds.decimal?
  have hdigits : s.digits.all Text.isAsciiDigit =
      ((s.whole ++ s.fraction).all Text.isAsciiDigit && s.exponent.all Text.isAsciiDigit) := by
    rw [← List.all_append, List.append_assoc]
    rfl
  rw [digitsValue?_eq, digitsValue?_eq, hdigits]
  cases (s.whole ++ s.fraction).all Text.isAsciiDigit with
  | false => rfl
  | true =>
    cases s.exponent.all Text.isAsciiDigit with
    | false => rfl
    | true => rfl

theorem value_eq_number (s : Seconds) :
    Decimal.value ⟨Nat.ofDigitChars 10 (s.whole ++ s.fraction) 0, s.power - s.fraction.length⟩ =
      s.number := by
  have hten : (10 : ℚ) ≠ 0 := by norm_num
  rw [Decimal.value, Seconds.number, Nat.ofDigitChars_append, Nat.ofDigitChars_eq_ofDigitChars_zero,
    zpow_sub₀ hten, zpow_natCast]
  push_cast
  field_simp

theorem value?_eq_some_iff {s : Seconds} {x : Float} : s.value? = some x ↔
    s.digits.all Text.isAsciiDigit = true ∧ Decimal.IsRounded x s.number := by
  rw [← value_eq_number, Decimal.isRounded_value_iff]
  unfold Seconds.value?
  rw [decimal?_eq]
  cases s.digits.all Text.isAsciiDigit with
  | false => simp
  | true => simp

theorem bytesValue?_eq_some_iff {ds : List Char} {b : UInt64} : bytesValue? ds = some b ↔
    ds.all Text.isAsciiDigit = true ∧ b.toNat = Nat.ofDigitChars 10 ds 0 := by
  unfold bytesValue?
  rw [digitsValue?_eq]
  generalize Nat.ofDigitChars 10 ds 0 = n
  cases ds.all Text.isAsciiDigit with
  | false => simp
  | true =>
    have hb := b.toNat_lt
    simp only [if_true, Option.bind_eq_bind, Option.bind_some, true_and]
    split
    · rename_i hlt
      rw [Option.some.injEq, ← UInt64.toNat_inj, eq_comm]
      have hn : n.toUInt64.toNat = n := Nat.mod_eq_of_lt hlt
      rw [hn]
    · rename_i hlt
      refine iff_of_false (by simp) ?_
      rintro rfl
      exact hlt hb

theorem Parts.ascii_iff {p : Parts} (h : p.Fit) {s : Seconds} (hs : SecondsText p.seconds s) :
    p.Ascii ↔ s.digits.all Text.isAsciiDigit = true ∧ p.bytes.all Text.isAsciiDigit = true := by
  simp only [List.all_eq_true, Parts.Ascii]
  constructor
  · intro hascii
    refine ⟨fun c hc => ?_, fun c hc => ?_⟩
    · exact hascii c (List.mem_append_left _ (hs.mem_of_digits hc)) (hs.digits c hc)
    · exact hascii c (List.mem_append_right _ hc) (h.bytes.2 c hc)
  · rintro ⟨hseconds, hbytes⟩ c hc hdigit
    rcases List.mem_append.mp hc with hc | hc
    · refine (hs.mem hc).elim (hseconds c) (fun hmark => ?_)
      have hmarks : ['.', 'e', 'E', '+', '-'].all (fun c => !Text.isDecimalDigit c) = true := by
        decide
      simpa [hdigit] using List.all_eq_true.mp hmarks c hmark
    · exact hbytes c hc

theorem measurement?_eq_some_iff {p : Parts} (h : p.Fit) {s : Seconds}
    (hs : SecondsText p.seconds s) {m : Measurement} :
    (⟨p.file, p.configuration, s, p.bytes⟩ : Fields).measurement? = some m ↔
      p.Ascii ∧ p.Denotes m := by
  have hread : (⟨p.file, p.configuration, s, p.bytes⟩ : Fields).measurement? = some m ↔
      m.file.toList = p.file ∧ s.value? = some m.seconds ∧ bytesValue? p.bytes = some m.bytes := by
    unfold Fields.measurement?
    simp only [Option.bind_eq_bind, Option.bind_eq_some_iff]
    constructor
    · rintro ⟨x, hx, b, hb, hm⟩
      cases hm
      exact ⟨String.toList_ofList, hx, hb⟩
    · rintro ⟨hfile, hx, hb⟩
      refine ⟨_, hx, _, hb, ?_⟩
      rw [← hfile, String.ofList_toList]
      rfl
  rw [hread, value?_eq_some_iff, bytesValue?_eq_some_iff, p.ascii_iff h hs]
  constructor
  · rintro ⟨hfile, ⟨hseconds, hx⟩, hbytes, hb⟩
    exact ⟨⟨hseconds, hbytes⟩, hfile, ⟨s, hs, hx⟩, hb⟩
  · rintro ⟨⟨hseconds, hbytes⟩, hfile, ⟨s', hs', hx⟩, hb⟩
    rw [hs'.unique hs] at hx
    exact ⟨hfile, ⟨hseconds, hx⟩, hbytes, hb⟩

theorem Parts.representable_iff {p : Parts} : p.Representable ↔ p.Ascii ∧ ∃ m, p.Denotes m := by
  constructor
  · rintro ⟨hascii, ⟨s, hs, hlt⟩, hbytes⟩
    obtain ⟨x, hx⟩ : ∃ x, Decimal.IsRounded x s.number := by
      rw [← value_eq_number] at hlt ⊢
      exact ⟨_, (Decimal.toFloat_rounds _).1 hlt⟩
    exact ⟨hascii, ⟨String.ofList p.file, x, (Nat.ofDigitChars 10 p.bytes 0).toUInt64⟩,
      String.toList_ofList, ⟨s, hs, hx⟩, Nat.mod_eq_of_lt hbytes⟩
  · rintro ⟨hascii, m, -, ⟨s, hs, hx⟩, hbytes⟩
    exact ⟨hascii, ⟨s, hs, hx.bounded⟩, hbytes ▸ m.bytes.toNat_lt⟩

theorem measurement?_of_nowhere {line : String}
    (h : ∀ i (p : Parts), ¬ p.StandsAt (line.toList.rdropWhile isLineEnd) i) :
    measurement? line = none := by
  have hleft : leftmost (Text.trimEndList isLineEnd line.toList) = none :=
    leftmost_eq_none_iff.mpr (fun i => fieldsAt_eq_none_iff.mpr (h i))
  rw [measurement?, hleft]
  rfl

/-- The leftmost place of the form decides what a line says. -/
theorem measurement?_of_leftmost {line : String} {i : Nat} {p : Parts}
    (hp : p.StandsAt (line.toList.rdropWhile isLineEnd) i)
    (hbefore : ∀ j < i, ∀ q : Parts, ¬ q.StandsAt (line.toList.rdropWhile isLineEnd) j)
    {m : Measurement} : measurement? line = some m ↔ p.Ascii ∧ p.Denotes m := by
  obtain ⟨s, hs⟩ := hp.1.seconds
  have hleft : leftmost (Text.trimEndList isLineEnd line.toList) =
      some ⟨p.file, p.configuration, s, p.bytes⟩ :=
    leftmost_eq_some (fieldsAt_of_standsAt hp hs)
      (fun j hj => fieldsAt_eq_none_iff.mpr (hbefore j hj))
  rw [measurement?, hleft]
  exact measurement?_eq_some_iff hp.1 hs

/-- A line in which the form stands nowhere holds no measurement. At the leftmost place where it
stands in what comes before the line end it is divided into parts in one way, and the line holds the
measurement that they say if their numbers have values, and none otherwise. -/
theorem line_recognised (line : String) :
    let t := line.toList.rdropWhile isLineEnd
    ((∀ i (p : Parts), ¬ p.StandsAt t i) → measurement? line = none) ∧
    ∀ i (p : Parts), p.StandsAt t i → (∀ j < i, ∀ q : Parts, ¬ q.StandsAt t j) →
      (∀ q : Parts, q.StandsAt t i → q = p) ∧
      (p.Representable → ∃ m, measurement? line = some m ∧ p.Denotes m) ∧
      (¬ p.Representable → measurement? line = none) := by
  refine ⟨measurement?_of_nowhere, fun i p hp hbefore => ⟨fun q => hp.unique, ?_, ?_⟩⟩
  · intro hrep
    obtain ⟨hascii, m, hm⟩ := Parts.representable_iff.mp hrep
    exact ⟨m, (measurement?_of_leftmost hp hbefore).mpr ⟨hascii, hm⟩, hm⟩
  · intro hrep
    by_contra hne
    obtain ⟨m, hm⟩ := Option.ne_none_iff_exists'.mp hne
    obtain ⟨hascii, hdenotes⟩ := (measurement?_of_leftmost hp hbefore).mp hm
    exact hrep (Parts.representable_iff.mpr ⟨hascii, m, hdenotes⟩)

/-- A line with two texts of the form, of which the first has too many bytes. -/
def sampleLine : String :=
  "> Benchmarked a.jfr with b in 1s, size: 18446744073709551616 bytes, " ++
    "Benchmarked c.jfr with d in 2s, size: 3 bytes\r\n"

theorem line_recognised_sample :
    (∃ i, (⟨"c.jfr".toList, ['d'], ['2'], ['3']⟩ : Parts).StandsAt
      (sampleLine.toList.rdropWhile isLineEnd) i) ∧ measurement? sampleLine = none := by
  have hseconds : ∀ {ds : List Char}, Piece Text.isDecimalDigit ds →
      SecondsText ds ⟨ds, [], false, []⟩ := fun {ds} h => by
    have htext : SecondsText (ds ++ ([] ++ [])) ⟨ds, [], false, []⟩ := .mk h .absent .absent
    rwa [List.append_nil, List.append_nil] at htext
  refine ⟨⟨68, ⟨⟨['c'], by decide, rfl⟩, by decide, ⟨_, hseconds (by decide)⟩, by decide⟩,
    by decide +kernel⟩, ?_⟩
  let p : Parts := ⟨"a.jfr".toList, ['b'], ['1'], "18446744073709551616".toList⟩
  have hp : p.StandsAt (sampleLine.toList.rdropWhile isLineEnd) 2 :=
    ⟨⟨⟨['a'], by decide, rfl⟩, by decide, ⟨_, hseconds (by decide)⟩, by decide⟩, by decide +kernel⟩
  refine ((line_recognised sampleLine).2 2 p hp ?_).2.2 (fun h => ?_)
  · intro j hj
    refine fieldsAt_eq_none_iff.mp ?_
    interval_cases j <;> decide +kernel
  · exact absurd h.bytes (by decide +kernel)

end CompressionSweep.Line
