import CompressionSweep.Proofs.Statistics.Aggregate

/-! The bytes of an algorithm. However its measurements are spread over runs, and whether a sum is
cut at the largest size within a run or only behind the last one, the total is the exact sum, cut
once. -/

namespace CompressionSweep

open Statistics

namespace Statistics

/-- A cut within the groups does not show in their total. -/
theorem totalBytes_flatten (groups : List (List UInt64)) :
    totalBytes (groups.map totalBytes) = totalBytes groups.flatten := by
  apply UInt64.toNat_inj.mp
  rw [toNat_totalBytes, toNat_totalBytes]
  induction groups with
  | nil => rfl
  | cons sizes groups ih =>
    have hfirst := toNat_totalBytes sizes
    simp only [List.map_cons, List.sum_cons, List.flatten_cons, List.map_append,
      List.sum_append] at ih ⊢
    omega

end Statistics

/-- The exact sum of the sizes of measurements. -/
def byteSum (ms : List Measurement) : Nat :=
  (ms.map (·.bytes.toNat)).sum

def largestSize : Nat := 2 ^ 64 - 1

theorem toNat_totalBytes_records (ms : List Measurement) :
    (totalBytes (ms.map (·.bytes))).toNat = min (byteSum ms) largestSize := by
  rw [toNat_totalBytes, List.map_map]
  rfl

theorem byteSum_eq_of_perm {ms ms' : List Measurement} (h : ms.Perm ms') :
    byteSum ms = byteSum ms' :=
  (h.map _).sum_nat

theorem byteSum_append (ms ms' : List Measurement) :
    byteSum (ms ++ ms') = byteSum ms + byteSum ms' := by
  simp [byteSum]

def RunEntry.summary (r : RunEntry) : RunSummary := .ofRecords r.results

/-- The totals in the statistics of an algorithm: from its measurements, and from the summaries of
its runs, which may be added in any order. -/
structure Aggregate.Totals (s : Aggregate) (e : AlgorithmEntry) : Prop where
  exact : s.totalBytes.toNat = min (byteSum e.records) largestSize
  overRuns : ∀ runs : List RunEntry, runs.Perm e.runs →
    s.totalBytes = (runs.map (·.summary.totalBytes)).foldl addClamped 0
  files : s.samples = (e.runs.map (·.summary.files)).sum

theorem AlgorithmEntry.totals {e : AlgorithmEntry} {s : Aggregate} (h : e.aggregate? = some s) :
    s.Totals e := by
  obtain ⟨-, rfl⟩ := AlgorithmEntry.aggregate?_eq_some_iff.mp h
  refine ⟨toNat_totalBytes_records _, fun runs hruns => ?_, e.length_records⟩
  have hgroups : e.records.map (·.bytes) = (e.runs.map (·.results.map (·.bytes))).flatten := by
    rw [AlgorithmEntry.records, List.map_flatMap, List.flatMap_def]
  calc totalBytes (e.records.map (·.bytes))
      = totalBytes ((e.runs.map (·.results.map (·.bytes))).map totalBytes) := by
        rw [hgroups, totalBytes_flatten]
    _ = totalBytes (e.runs.map (·.summary.totalBytes)) := by
        rw [List.map_map]
        rfl
    _ = totalBytes (runs.map (·.summary.totalBytes)) :=
        totalBytes_eq_of_perm (hruns.symm.map _)

namespace Document

variable {d : Document} {name : String} {e : AlgorithmEntry}

theorem exists_aggregate? (he : d.algorithm? name = some e) (h : e.records ≠ []) :
    ∃ s, d.aggregate? name = some s ∧ e.aggregate? = some s := by
  have hsome : d.aggregate? name ≠ none :=
    mt (d.aggregate?_eq_none_iff name).mp (by rwa [recordsFor, he])
  obtain ⟨s, hs⟩ := Option.ne_none_iff_exists'.mp hsome
  obtain ⟨e', he', -, hs'⟩ := exists_of_aggregate? hs
  obtain rfl : e = e' := Option.some.inj (he.symm.trans he')
  exact ⟨s, hs, hs'⟩

/-- Measurements that arrive one by one, each under the name of an algorithm, known or not, and for
one of its runs. -/
def extendAll (d : Document) (as : List (String × Sample)) : Document :=
  as.foldl (fun d a => d.append a.1 a.2.1 a.2.2) d

def arrivedFor (name : String) (as : List (String × Sample)) : List Measurement :=
  (as.filter (·.1 == name)).map (·.2.2)

theorem exists_records_append (he : d.algorithm? name = some e) (a : String × Sample) :
    ∃ e', (d.append a.1 a.2.1 a.2.2).algorithm? name = some e' ∧
      e'.records.Perm (e.records ++ arrivedFor name [a]) := by
  rw [algorithm?_append]
  by_cases hname : a.1 = name
  · subst hname
    have hsamples := (e.samples_modifyRun a.2.1 a.2.2).map (·.2)
    refine ⟨e.modifyRun a.2.1 (·.extend [a.2.2]), by rw [if_pos rfl, he, Option.getD_some], ?_⟩
    rw [AlgorithmEntry.records_eq, e.records_eq]
    simpa [arrivedFor] using hsamples
  · exact ⟨e, by rw [if_neg hname, he], by simp [arrivedFor, hname]⟩

theorem exists_records_extendAll (he : d.algorithm? name = some e) (as : List (String × Sample)) :
    ∃ e', (d.extendAll as).algorithm? name = some e' ∧
      e'.records.Perm (e.records ++ arrivedFor name as) := by
  induction as generalizing d e with
  | nil => exact ⟨e, he, List.Perm.of_eq (List.append_nil _).symm⟩
  | cons a as ih =>
    obtain ⟨e₁, he₁, hfirst⟩ := exists_records_append he a
    obtain ⟨e', he', hrest⟩ := ih he₁
    have hcons : arrivedFor name (a :: as) = arrivedFor name [a] ++ arrivedFor name as := by
      rw [arrivedFor, ← List.singleton_append, List.filter_append, List.map_append]
      rfl
    rw [hcons, ← List.append_assoc]
    exact ⟨e', he', hrest.trans (hfirst.append_right _)⟩

theorem exists_totals_extendAll (he : d.algorithm? name = some e) (h : e.records ≠ [])
    (as : List (String × Sample)) :
    ∃ e' s', (d.extendAll as).algorithm? name = some e' ∧
      (d.extendAll as).aggregate? name = some s' ∧ s'.Totals e' ∧ s'.totalBytes.toNat =
        min (byteSum e.records + byteSum (arrivedFor name as)) largestSize := by
  obtain ⟨e', he', hperm⟩ := exists_records_extendAll he as
  have hne : e'.records ≠ [] := by
    intro hnone
    exact h (List.append_eq_nil_iff.mp (hnone ▸ hperm).nil_eq.symm).1
  obtain ⟨s', hs', hentry⟩ := exists_aggregate? he' hne
  have htotals := AlgorithmEntry.totals hentry
  refine ⟨e', s', he', hs', htotals, ?_⟩
  rw [htotals.exact, byteSum_eq_of_perm hperm, byteSum_append]

/-- An algorithm with measurements, in any document. Its total of bytes is the exact sum of the
sizes, or the largest size where the sum is larger. The totals of its runs, each cut in the same way
and added in any order, give the same total, and their numbers of files its number of samples. All
of this stays so when more measurements arrive, in whatever order: the sizes that come in for the
algorithm are added, and a total that has reached the largest size stays there. -/
theorem totals_exact {d : Document} {name : String} (h : d.recordsFor name ≠ []) :
    ∃ e s, d.algorithm? name = some e ∧ d.aggregate? name = some s ∧ s.Totals e ∧
      s.totalBytes.toNat = min (byteSum (d.recordsFor name)) largestSize ∧
      ∀ as : List (String × Sample), ∃ e' s', (d.extendAll as).algorithm? name = some e' ∧
        (d.extendAll as).aggregate? name = some s' ∧ s'.Totals e' ∧
        s'.totalBytes.toNat =
          min (byteSum (d.recordsFor name) + byteSum (arrivedFor name as)) largestSize ∧
        (s.totalBytes.toNat = largestSize → s'.totalBytes = s.totalBytes) ∧
        ∀ bs : List (String × Sample), as.Perm bs →
          ((d.extendAll bs).aggregate? name).map (·.totalBytes) = some s'.totalBytes := by
  obtain ⟨s, hs⟩ := Option.ne_none_iff_exists'.mp (mt (d.aggregate?_eq_none_iff name).mp h)
  obtain ⟨e, he, hrecords, hentry⟩ := exists_of_aggregate? hs
  have htotals := AlgorithmEntry.totals hentry
  rw [hrecords] at h ⊢
  refine ⟨e, s, he, hs, htotals, htotals.exact, fun as => ?_⟩
  obtain ⟨e', s', he', hs', htotals', hsum⟩ := exists_totals_extendAll he h as
  refine ⟨e', s', he', hs', htotals', hsum, fun hfull => ?_, fun bs hperm => ?_⟩
  · apply UInt64.toNat_inj.mp
    have hexact := htotals.exact
    omega
  · obtain ⟨-, s'', -, hs'', -, hsum'⟩ := exists_totals_extendAll he h bs
    have hsame : byteSum (arrivedFor name as) = byteSum (arrivedFor name bs) :=
      byteSum_eq_of_perm ((hperm.filter _).map _)
    rw [hs'', Option.map_some, Option.some.injEq]
    apply UInt64.toNat_inj.mp
    rw [hsum', hsum, hsame]

/-- Three runs, one of them empty, that together just miss the largest size. -/
def vastDocument : Document :=
  ⟨"t", "default", 3, none, "GZIP", [⟨"GZIP",
    [⟨1, [⟨"a.jfr", 1.5, 18446744073709551600⟩]⟩, ⟨2, []⟩,
      ⟨3, [⟨"b.jfr", 2.5, 3⟩, ⟨"a.jfr", 0.5, 4⟩]⟩]⟩]⟩

theorem totals_exact_sample :
    ∃ s, vastDocument.aggregate? "GZIP" = some s ∧ s.samples = 3 ∧
      s.totalBytes = 18446744073709551607 ∧
      ∃ s', (vastDocument.extendAll [("GZIP", 2, ⟨"c.jfr", 1.0, 5⟩), ("XZ", 1, ⟨"c.jfr", 1.0, 9⟩),
          ("GZIP", 1, ⟨"c.jfr", 1.0, 18446744073709551615⟩)]).aggregate? "GZIP" = some s' ∧
        s'.totalBytes = 18446744073709551615 := by
  obtain ⟨e, s, he, hs, htotals, hsum, hmore⟩ :=
    totals_exact (by decide : vastDocument.recordsFor "GZIP" ≠ [])
  obtain ⟨-, s', -, hs', -, hsum', -⟩ := hmore [("GZIP", 2, ⟨"c.jfr", 1.0, 5⟩),
    ("XZ", 1, ⟨"c.jfr", 1.0, 9⟩), ("GZIP", 1, ⟨"c.jfr", 1.0, 18446744073709551615⟩)]
  obtain rfl := Option.some.inj ((rfl : vastDocument.algorithm? "GZIP" = some _).symm.trans he)
  exact ⟨s, hs, htotals.files, UInt64.toNat_inj.mp (hsum.trans (by decide)),
    s', hs', UInt64.toNat_inj.mp (hsum'.trans (by decide))⟩

end Document

end CompressionSweep
