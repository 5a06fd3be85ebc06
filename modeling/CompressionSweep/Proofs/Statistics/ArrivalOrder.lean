import CompressionSweep.Proofs.Comparison.Names
import CompressionSweep.Proofs.Document.Arrivals
import CompressionSweep.Proofs.Statistics.Groups
import CompressionSweep.Report.Table

/-! Measurements that arrive in another order give the same statistics, the same comparison and the
same report. -/

namespace CompressionSweep

/-- The entries hold the same samples in some order, and as many runs. -/
structure AlgorithmEntry.SameSamples (e e' : AlgorithmEntry) : Prop where
  samples : e.samples.Perm e'.samples
  runs : e.runs.length = e'.runs.length

/-- The documents have the same algorithms, and the same samples for each, in some order. -/
structure Document.SameSamples (d d' : Document) : Prop where
  algorithms : (d.compressions.map (·.algorithm)).Perm (d'.compressions.map (·.algorithm))
  entries : ∀ name, Option.Rel AlgorithmEntry.SameSamples (d.algorithm? name) (d'.algorithm? name)

theorem AlgorithmEntry.SameSamples.aggregate? {e e' : AlgorithmEntry} (h : e.SameSamples e') :
    e.aggregate? = e'.aggregate? := by
  have hms : e.records.Perm e'.records := by
    rw [e.records_eq, e'.records_eq]
    exact h.samples.map _
  have hsizes := Statistics.totalBytes_eq_of_perm (hms.map (·.bytes))
  simp only [AlgorithmEntry.aggregate?, Statistics.seconds_eq_of_perm hms,
    Statistics.sizes_eq_of_perm hms, hsizes, hms.length_eq, h.runs, hms.isEmpty_eq]

theorem samplesOf_perm {as bs : List Arrival} (h : as.Perm bs) (name : String) :
    (samplesOf name as).Perm (samplesOf name bs) :=
  (h.filter _).map _

theorem AlgorithmEntry.sameSamples_extendAll {e : AlgorithmEntry}
    (he : (e.runs.map (·.run)).Nodup) {ss ss' : List Sample} (h : ss.Perm ss') :
    (e.extendAll ss).SameSamples (e.extendAll ss') where
  samples :=
    (e.samples_extendAll ss).trans ((h.append_left _).trans (e.samples_extendAll ss').symm)
  runs := by
    have hruns : ((e.extendAll ss).runs.map (·.run)).Perm ((e.extendAll ss').runs.map (·.run)) := by
      refine (List.perm_ext_iff_of_nodup (nodup_runs_extendAll he ss)
        (nodup_runs_extendAll he ss')).mpr (fun run => ?_)
      rw [mem_runs_extendAll, mem_runs_extendAll, (h.map _).mem_iff]
    simpa only [List.length_map] using hruns.length_eq

namespace Document

theorem sameSamples_appendAll {d : Document} (hd : d.compressions = []) {as bs : List Arrival}
    (h : as.Perm bs) : (d.appendAll as).SameSamples (d.appendAll bs) where
  algorithms := by
    have hnd : (d.compressions.map (·.algorithm)).Nodup := by rw [hd]; exact List.nodup_nil
    refine (List.perm_ext_iff_of_nodup (nodup_algorithms_appendAll hnd as)
      (nodup_algorithms_appendAll hnd bs)).mpr (fun name => ?_)
    rw [mem_algorithms_appendAll, mem_algorithms_appendAll, (h.map _).mem_iff]
  entries name := by
    have hsamples := samplesOf_perm h name
    have hnone : d.algorithm? name = none := by rw [algorithm?, hd]; rfl
    rw [algorithm?_appendAll, algorithm?_appendAll, hnone]
    by_cases hempty : samplesOf name as = []
    · have hempty' : samplesOf name bs = [] := (hempty ▸ hsamples).nil_eq.symm
      rw [if_pos hempty, if_pos hempty']
      exact .none
    · have hempty' : samplesOf name bs ≠ [] := fun h' => hempty ((h' ▸ hsamples).eq_nil)
      rw [if_neg hempty, if_neg hempty']
      have hnew : ((⟨name, []⟩ : AlgorithmEntry).runs.map (·.run)).Nodup := List.nodup_nil
      exact .some (AlgorithmEntry.sameSamples_extendAll hnew hsamples)

namespace SameSamples

variable {d d' : Document} (h : d.SameSamples d')

include h

theorem aggregate? (name : String) : d.aggregate? name = d'.aggregate? name := by
  have hentries := h.entries name
  unfold Document.aggregate?
  generalize d.algorithm? name = o, d'.algorithm? name = o' at hentries
  cases hentries with
  | none => rfl
  | some he => exact he.aggregate?

theorem perFile (name : String) : d.perFile name = d'.perFile name := by
  have hentries := h.entries name
  unfold Document.perFile
  generalize d.algorithm? name = o, d'.algorithm? name = o' at hentries
  cases hentries with
  | none => rfl
  | some he => exact fileStatistics_eq_of_perm he.samples

theorem fileStatistics? (name file : String) :
    d.fileStatistics? name file = d'.fileStatistics? name file := by
  have hentries := h.entries name
  unfold Document.fileStatistics?
  generalize d.algorithm? name = o, d'.algorithm? name = o' at hentries
  cases hentries with
  | none => rfl
  | some he =>
    have hss := he.samples.filter (·.2.file == file)
    simp only [Option.bind_some, hss.isEmpty_eq, FileStatistics.ofSamples_eq_of_perm hss]

/-- Only the algorithms that the comparison lists can be different. -/
theorem build_eq {expected : List Algorithm}
    (hnames : Comparison.names d expected = Comparison.names d' expected) (baseline : String) :
    Comparison.build d baseline expected = Comparison.build d' baseline expected := by
  have hrow : Comparison.row d baseline = Comparison.row d' baseline := by
    funext name
    simp only [Comparison.row, Comparison.measured?, Comparison.baselineOf, h.aggregate?, h.perFile]
  simp only [Comparison.build, Comparison.baselineOf, h.aggregate?, hnames, hrow]

end SameSamples

theorem summary_appendAll (d : Document) (as : List Arrival) (c : Comparison) :
    Report.summary (d.appendAll as) c = Report.summary d c := by
  obtain ⟨es, hes⟩ := d.appendAll_eq as
  rw [hes]
  rfl

end Document

/-- Measurements that arrive in an empty document in two different orders, with any durations and
sizes, give the same statistics of every algorithm and of every file. Compared with any baseline
they give the same rows in the same order, and so the tables of the report have the same text. -/
theorem statistics_of_permuted_arrivals {d : Document} (hd : d.compressions = [])
    {as bs : List Arrival} (h : as.Perm bs) :
    let x := d.appendAll as
    let y := d.appendAll bs
    (∀ name, x.aggregate? name = y.aggregate? name) ∧
    (∀ name, x.perFile name = y.perFile name) ∧
    (∀ name file, x.fileStatistics? name file = y.fileStatistics? name file) ∧
    ∀ baseline expected,
      let c := Comparison.build x baseline expected
      let c' := Comparison.build y baseline expected
      c = c' ∧ Report.text (Report.summary x c) = Report.text (Report.summary y c') ∧
        Report.text (Report.perFile c) = Report.text (Report.perFile c') := by
  intro x y
  have hsame : x.SameSamples y := Document.sameSamples_appendAll hd h
  have hnd : (x.compressions.map (·.algorithm)).Nodup :=
    Document.nodup_algorithms_appendAll (by rw [hd]; exact List.nodup_nil) as
  have hknown : ∀ name ∈ x.compressions.map (·.algorithm), ∃ a : Algorithm, name = a.name := by
    intro name hname
    rcases (Document.mem_algorithms_appendAll d as name).mp hname with hname | hname
    · rw [hd] at hname
      exact absurd hname List.not_mem_nil
    · obtain ⟨a, -, rfl⟩ := List.mem_map.mp hname
      exact ⟨a.1, rfl⟩
  refine ⟨hsame.aggregate?, hsame.perFile, hsame.fileStatistics?, fun baseline expected => ?_⟩
  intro c c'
  have hc : c = c' :=
    hsame.build_eq (Comparison.names_eq_of_perm hnd hsame.algorithms hknown expected) baseline
  refine ⟨hc, ?_, congrArg (fun c => Report.text (Report.perFile c)) hc⟩
  rw [hc, Document.summary_appendAll, Document.summary_appendAll]

/-- Two runs, several files, durations that are no number, infinite or a negative zero, and sizes
that reach the limit. -/
def sampleArrivals : List Arrival :=
  [(.zstd, 2, ⟨"b.jfr", 0.1, 10⟩), (.gzip, 2, ⟨"a.jfr", 0.0 / 0.0, 18446744073709551615⟩),
    (.zstd, 1, ⟨"a.jfr", -0.0, 7⟩), (.gzip, 1, ⟨"a.jfr", 1.0 / 0.0, 5⟩),
    (.zstd, 2, ⟨"b.jfr", 0.2, 20⟩), (.zstd, 1, ⟨"b.jfr", 0.3, 30⟩), (.zstd, 1, ⟨"a.jfr", 0.0, 8⟩)]

theorem statistics_of_permuted_arrivals_sample :
    let d := Document.new "t" "default" 2 none .gzip
    let x := d.appendAll sampleArrivals
    let y := d.appendAll sampleArrivals.reverse
    x ≠ y ∧ x.aggregate? "ZSTD" = y.aggregate? "ZSTD" ∧ x.perFile "GZIP" = y.perFile "GZIP" ∧
      Comparison.build x "ZSTD" [.xz, .gzip] = Comparison.build y "ZSTD" [.xz, .gzip] := by
  intro d x y
  obtain ⟨haggregate, hfiles, -, hbuild⟩ := statistics_of_permuted_arrivals
    (rfl : d.compressions = []) (List.reverse_perm sampleArrivals).symm
  exact ⟨by decide +kernel, haggregate "ZSTD", hfiles "GZIP", (hbuild "ZSTD" [.xz, .gzip]).1⟩

end CompressionSweep
