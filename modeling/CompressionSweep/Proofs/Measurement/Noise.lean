import CompressionSweep.Proofs.Measurement.Recognition

/-! A record among other text. A text of the form that begins before a record ends before it: the
letter that a record begins with is too late in it, or in the wrong part. -/

namespace CompressionSweep.Line

/-- A character behind `u` stands in the first of two texts or in the second. -/
theorem append_eq_append_cons {a b u v : List Char} {c : Char} (h : a ++ b = u ++ c :: v) :
    (∃ k, a = u ++ c :: k ∧ v = k ++ b) ∨ ∃ k, u = a ++ k ∧ b = k ++ c :: v := by
  rcases List.append_eq_append_iff.mp h with ⟨k, hu, hb⟩ | ⟨k, ha, hv⟩
  · exact .inr ⟨k, hu, hb⟩
  · cases k with
    | nil =>
      rw [List.append_nil] at ha
      exact .inr ⟨[], by rw [ha, List.append_nil], hv.symm⟩
    | cons d k =>
      obtain ⟨rfl, rfl⟩ := List.cons.inj hv
      exact .inl ⟨k, ha, rfl⟩

theorem Parts.Fit.not_mem_end {q : Parts} (h : q.Fit) :
    'B' ∉ " in ".toList ++ (q.seconds ++ ("s, size: ".toList ++ (q.bytes ++ " bytes".toList))) := by
  have hseconds : 'B' ∉ q.seconds := fun hc => absurd (h.seconds_chars _ hc) (by decide)
  have hbytes : 'B' ∉ q.bytes := fun hc => absurd (h.bytes.2 _ hc) (by decide)
  simp only [List.mem_append, hseconds, hbytes]
  decide

theorem Parts.Fit.file_ne {q : Parts} (h : q.Fit) {s : List Char}
    (hs : s.getLast? ≠ some 'r') : q.file ≠ s := by
  obtain ⟨stem, -, hfile⟩ := h.file
  rintro rfl
  rw [hfile, List.getLast?_append] at hs
  exact hs rfl

/-- What a record begins with is read on from the letter within a part of another text of the form:
that part would end with the first word of the record. -/
theorem part_before_blank {p : Char → Bool} {k r r' : List Char} (hk : ∀ c ∈ k, p c = true)
    (hword : ∀ c ∈ "enchmarked".toList, p c = true) (hblank : p ' ' = false)
    (h : k ++ ' ' :: r = "enchmarked ".toList ++ r') : k = "enchmarked".toList ∧ r = r' :=
  eq_of_append_eq hk hword hblank hblank h

/-- Texts of the form do not overlap. -/
theorem Parts.not_overlap {p q : Parts} (hp : p.Fit) (hq : q.Fit) {u v r r' : List Char}
    (hu : u ≠ []) (hv : v ≠ []) (htext : q.text = u ++ v) (hover : v ++ r = p.text ++ r') :
    False := by
  rw [Parts.text_append] at hover
  obtain ⟨b, v, rfl⟩ := List.exists_cons_of_ne_nil hv
  have hfirst : "Benchmarked ".toList = 'B' :: "enchmarked ".toList := rfl
  rw [hfirst, List.cons_append, List.cons_append] at hover
  obtain rfl : b = 'B' := (List.cons.inj hover).1
  replace hover := (List.cons.inj hover).2
  unfold Parts.text at htext
  -- The letter stands in one of the texts that the other one is made of.
  rcases append_eq_append_cons htext with ⟨k, hk, -⟩ | ⟨_, -, htext⟩
  · obtain ⟨c, u, rfl⟩ := List.exists_cons_of_ne_nil hu
    rw [hfirst, List.cons_append] at hk
    have hmem : 'B' ∈ "enchmarked ".toList := by
      rw [(List.cons.inj hk).2]
      simp
    exact absurd hmem (by decide)
  rcases append_eq_append_cons htext with ⟨k, hfile, rfl⟩ | ⟨_, -, htext⟩
  · have hk : ∀ c ∈ k, isNameChar c = true := fun c hc =>
      hq.file_piece.2 c (by rw [hfile]; simp [hc])
    rw [List.append_assoc, with_cons, List.cons_append] at hover
    obtain ⟨rfl, -⟩ := part_before_blank hk (List.all_eq_true.mp (by decide)) (by decide) hover
    refine hq.file_ne ?_ hfile
    simp
  rcases append_eq_append_cons htext with ⟨k, hk, -⟩ | ⟨_, -, htext⟩
  · have hmem : 'B' ∈ " with ".toList := by
      rw [hk]
      simp
    exact absurd hmem (by decide)
  rcases append_eq_append_cons htext with ⟨k, hconfiguration, rfl⟩ | ⟨_, -, htext⟩
  · have hk : ∀ c ∈ k, isConfigurationChar c = true := fun c hc =>
      hq.configuration.2 c (by rw [hconfiguration]; simp [hc])
    rw [List.append_assoc, in_cons, List.cons_append] at hover
    obtain ⟨-, hnext⟩ :=
      part_before_blank hk (List.all_eq_true.mp (by decide)) (by decide) hover
    -- The configuration is followed by a word that is no file name.
    have hword : ∀ s, "in ".toList ++ s = "in".toList ++ ' ' :: s := fun _ => rfl
    rw [List.append_assoc, hword, with_cons] at hnext
    obtain ⟨hfile, -⟩ := eq_of_append_eq (List.all_eq_true.mp (by decide)) hp.file_piece.2
      (by decide) (by decide) hnext
    exact hp.file_ne (by simp) hfile.symm
  · refine hq.not_mem_end ?_
    rw [htext]
    simp

/-- What stands in front of a record stands in front of its beginning as a whole. -/
theorem Parts.StandsAt.of_append {p q : Parts} (hp : p.Fit) {before after : List Char} {j : Nat}
    (hj : j < before.length) (h : q.StandsAt (before ++ (p.text ++ after)) j) :
    q.StandsAt before j := by
  obtain ⟨hq, r, hr⟩ := h
  refine ⟨hq, ?_⟩
  rw [List.drop_append_of_le_length hj.le] at hr
  rcases List.append_eq_append_iff.mp hr with ⟨k, hk, -⟩ | ⟨k, htext, hover⟩
  · exact ⟨k, hk.symm⟩
  · cases k with
    | nil => exact ⟨[], by rw [htext, List.append_nil, List.append_nil]⟩
    | cons c k =>
      have hne : before.drop j ≠ [] := by simpa using hj
      exact (Parts.not_overlap hp hq hne (List.cons_ne_nil c k) htext hover.symm).elim

theorem rdropWhile_append_cons {f : Char → Bool} {s : List Char} {c : Char} (hc : f c = false)
    (r : List Char) : (s ++ c :: r).rdropWhile f = s ++ c :: r.rdropWhile f := by
  induction r using List.reverseRecOn with
  | nil => exact List.rdropWhile_concat_neg f s c (by simp [hc])
  | append_singleton r d ih =>
    rw [← List.cons_append, ← List.append_assoc, List.rdropWhile_concat, List.rdropWhile_concat, ih]
    split
    · rfl
    · simp

theorem rdropWhile_text (p : Parts) (before after : List Char) :
    (before ++ (p.text ++ after)).rdropWhile isLineEnd =
      before ++ (p.text ++ after.rdropWhile isLineEnd) := by
  have hend : ['s'] <:+ p.text := by
    unfold Parts.text
    iterate 8 refine List.suffix_append_of_suffix ?_
    exact ⟨" byte".toList, rfl⟩
  obtain ⟨s, hs⟩ := hend
  have hsplit : ∀ r, before ++ (p.text ++ r) = before ++ s ++ 's' :: r := fun r => by
    rw [← hs]
    simp
  rw [hsplit, hsplit, rdropWhile_append_cons (by decide)]

/-- A record is read out of whatever stands before and after it, unless a text of the form stands
in front of it. -/
theorem record_in_noise {p : Parts} {m : Measurement} (hfit : p.Fit) (hascii : p.Ascii)
    (hdenotes : p.Denotes m) {before : String}
    (hbefore : ∀ i (q : Parts), ¬ q.StandsAt before.toList i) (after : String) :
    measurement? (before ++ String.ofList p.text ++ after) = some m := by
  have hline : (before ++ String.ofList p.text ++ after).toList.rdropWhile isLineEnd =
      before.toList ++ (p.text ++ after.toList.rdropWhile isLineEnd) := by
    rw [String.toList_append, String.toList_append, String.toList_ofList, List.append_assoc,
      rdropWhile_text]
  refine (measurement?_of_leftmost (i := before.toList.length) (p := p) ?_ ?_).mpr
    ⟨hascii, hdenotes⟩
  · rw [hline]
    refine ⟨hfit, after.toList.rdropWhile isLineEnd, ?_⟩
    rw [List.drop_left]
  · intro j hj q hq
    rw [hline] at hq
    exact hbefore j q (hq.of_append hfit hj)

def sampleBefore : String :=
  "[main] Benchmarked a.jfr with x in 3s, size: 4 byte|Benchmarked a.jfr with "

def sampleParts : Parts :=
  ⟨"dotty-G1.v2.jfr".toList, "fast_1".toList, "1.20E-1".toList, "007".toList⟩

theorem sampleParts_seconds :
    SecondsText sampleParts.seconds ⟨['1'], ['2', '0'], true, ['1']⟩ := by
  change SecondsText (['1'] ++ (('.' :: ['2', '0']) ++ ('E' :: (['-'] ++ ['1'])))) _
  exact .mk (by decide) (.digits (by decide)) (.digits (.inr rfl) .minus (by decide))

theorem record_in_noise_sample :
    (sampleParts.Fit ∧ sampleParts.Ascii ∧ sampleParts.Denotes ⟨"dotty-G1.v2.jfr", 0.12, 7⟩ ∧
      ∀ i (q : Parts), ¬ q.StandsAt sampleBefore.toList i) ∧
    measurement? (sampleBefore ++ String.ofList sampleParts.text ++ " Benchmarked b.jfr\r\n") =
      some ⟨"dotty-G1.v2.jfr", 0.12, 7⟩ := by
  have hfit : sampleParts.Fit :=
    ⟨⟨"dotty-G1.v2".toList, by decide, rfl⟩, by decide, ⟨_, sampleParts_seconds⟩, by decide⟩
  have hascii : sampleParts.Ascii :=
    (Parts.ascii_iff hfit sampleParts_seconds).mpr (by decide)
  have hdenotes : sampleParts.Denotes ⟨"dotty-G1.v2.jfr", 0.12, 7⟩ := by
    refine ⟨rfl, ⟨_, sampleParts_seconds, ?_⟩, by decide⟩
    rw [← value_eq_number, Decimal.isRounded_value_iff]
    decide +kernel
  have hbefore : ∀ i (q : Parts), ¬ q.StandsAt sampleBefore.toList i := fun i =>
    fieldsAt_eq_none_iff.mp (leftmost_eq_none_iff.mp (by decide +kernel) i)
  exact ⟨⟨hfit, hascii, hdenotes, hbefore⟩, record_in_noise hfit hascii hdenotes hbefore _⟩

end CompressionSweep.Line
