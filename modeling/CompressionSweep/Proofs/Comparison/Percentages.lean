import CompressionSweep.Proofs.Comparison.Rows
import CompressionSweep.Proofs.Document.Grouping
import CompressionSweep.Proofs.Report.Summary
import CompressionSweep.Proofs.Statistics.Files

/-! The percentages of a comparison. What a baseline can be compared with depends on its own
measurements only, of the whole algorithm for a row and of the same file for a file; the note under
the summary tells the same. -/

namespace CompressionSweep

open Comparison

/-- There are measurements, and their average is finite and greater than zero. -/
def Comparable (average : List Measurement → Float) (ms : List Measurement) : Prop :=
  ms ≠ [] ∧ (average ms).isFinite = true ∧ 0.0 < average ms

instance (average : List Measurement → Float) (ms : List Measurement) :
    Decidable (Comparable average ms) :=
  inferInstanceAs (Decidable (_ ∧ _ ∧ _))

/-- The two percentages of a subject, from its own averages and the measurements `base` of the
baseline. -/
structure Relative.Resolved (baseline : String) (base : List Measurement) (seconds bytes : Float)
    (r : Relative) : Prop where
  seconds : r.seconds = if Comparable averageSeconds base
    then .ok (seconds / averageSeconds base * 100.0) else .error baseline
  bytes : r.bytes = if Comparable averageBytes base
    then .ok (bytes / averageBytes base * 100.0) else .error baseline

/-- What a row with measurements of `name` holds: the statistics of the algorithm and of its files,
each with the percentages of the same measurements of the baseline. -/
structure Measured.Resolved (d : Document) (baseline name : String) (m : Measured) : Prop where
  statistics : d.aggregate? name = some m.statistics
  relative : m.relative.Resolved baseline (d.recordsFor baseline) m.statistics.averageSeconds
    m.statistics.averageBytes
  files : m.files.map (fun f => (f.file, f.statistics)) = d.perFile name
  fileRelative : ∀ f ∈ m.files, f.relative.Resolved baseline
    ((d.recordsFor baseline).filter (·.file == f.file)) f.statistics.averageSeconds
    f.statistics.averageBytes

theorem isOk_ite {c : Prop} [Decidable c] (p : Float) (baseline : String) :
    (if c then .ok p else .error baseline : Percentage).isOk = true ↔ c := by
  split_ifs with h <;> simp [h, Except.isOk, Except.toBool]

namespace Relative.Resolved

variable {baseline : String} {base : List Measurement} {seconds bytes : Float} {r : Relative}

theorem isOk_seconds (h : r.Resolved baseline base seconds bytes) :
    r.seconds.isOk = true ↔ Comparable averageSeconds base := by
  rw [h.seconds, isOk_ite]

theorem isOk_bytes (h : r.Resolved baseline base seconds bytes) :
    r.bytes.isOk = true ↔ Comparable averageBytes base := by
  rw [h.bytes, isOk_ite]

theorem eq_error_iff (h : r.Resolved baseline base seconds bytes) :
    r = ⟨.error baseline, .error baseline⟩ ↔
      ¬ Comparable averageSeconds base ∧ ¬ Comparable averageBytes base := by
  constructor
  · intro herror
    rw [← h.isOk_seconds, ← h.isOk_bytes, herror]
    exact ⟨Bool.false_ne_true, Bool.false_ne_true⟩
  · rintro ⟨hseconds, hbytes⟩
    have hs : r.seconds = .error baseline := h.seconds.trans (if_neg hseconds)
    have hb : r.bytes = .error baseline := h.bytes.trans (if_neg hbytes)
    calc r = ⟨r.seconds, r.bytes⟩ := rfl
      _ = ⟨.error baseline, .error baseline⟩ := by rw [hs, hb]

end Relative.Resolved

namespace Baseline

def averageOf? (average : List Measurement → Float) (ms : List Measurement) : Option Float :=
  if ms = [] then none else some (average ms)

def ofRecords (name : String) (ms : List Measurement) : Baseline :=
  ⟨name, averageOf? averageSeconds ms, averageOf? averageBytes ms⟩

theorem column_averageOf? (b : Baseline) (subject : Float) (average : List Measurement → Float)
    (ms : List Measurement) :
    b.column subject (averageOf? average ms) = if Comparable average ms
      then .ok (subject / average ms * 100.0) else .error b.name := by
  by_cases hnone : ms = []
  · simp [averageOf?, column, Comparable, hnone]
  · by_cases husable : (average ms).isFinite = true ∧ 0.0 < average ms <;>
      simp [averageOf?, column, relative, Comparable, hnone, husable]

theorem resolved_apply (name : String) (ms : List Measurement) (seconds bytes : Float) :
    ((ofRecords name ms).apply seconds bytes).Resolved name ms seconds bytes where
  seconds := column_averageOf? (ofRecords name ms) seconds averageSeconds ms
  bytes := column_averageOf? (ofRecords name ms) bytes averageBytes ms

theorem isUsable_ofRecords (name : String) (ms : List Measurement) :
    (ofRecords name ms).isUsable = true ↔
      Comparable averageSeconds ms ∨ Comparable averageBytes ms := by
  have hresolved := resolved_apply name ms 1.0 1.0
  rw [← hresolved.isOk_seconds, ← hresolved.isOk_bytes, ← Bool.or_eq_true]
  rfl

end Baseline

namespace Comparison

theorem baselineOf_eq (d : Document) (name : String) :
    baselineOf d name = .ofRecords name (d.recordsFor name) := by
  cases h : d.aggregate? name with
  | none =>
    have hnone := (d.aggregate?_eq_none_iff name).mp h
    simp [baselineOf, h, Baseline.ofRecords, Baseline.averageOf?, hnone]
  | some s =>
    obtain ⟨e, -, hrecords, hs⟩ := Document.exists_of_aggregate? h
    obtain ⟨hne, rfl⟩ := AlgorithmEntry.aggregate?_eq_some_iff.mp hs
    simp [baselineOf, h, Baseline.ofRecords, Baseline.averageOf?, hrecords, hne]

theorem fileBaseline_eq (d : Document) (name file : String) :
    fileBaseline name (d.perFile name) file =
      .ofRecords name ((d.recordsFor name).filter (·.file == file)) := by
  cases h : d.algorithm? name with
  | none =>
    have hfiles : d.perFile name = [] := by rw [Document.perFile, h]
    have hrecords : d.recordsFor name = [] := by rw [Document.recordsFor, h]
    simp [fileBaseline, hfiles, hrecords, Baseline.ofRecords, Baseline.averageOf?]
  | some e =>
    let ss := e.samples.filter (·.2.file == file)
    have hrecords : (d.recordsFor name).filter (·.file == file) = ss.map (·.2) := by
      rw [Document.recordsFor, h]
      dsimp only
      rw [e.records_eq, List.filter_map]
      rfl
    have hfind : (d.perFile name).find? (·.1 == file) =
        if file ∈ e.files then some (file, .ofSamples ss) else none := by
      rw [Document.perFile_of_algorithm? h]
      exact find?_map_of_key Prod.fst (fun _ => rfl) e.files file
    rw [fileBaseline, hfind, hrecords]
    by_cases hnone : ss = []
    · have hno : file ∉ e.files := fun hfile => (e.mem_files_iff_samples file).mp hfile hnone
      simp [hno, hnone, Baseline.ofRecords, Baseline.averageOf?]
    · have hfile : file ∈ e.files := (e.mem_files_iff_samples file).mpr hnone
      simp [hfile, hnone, Baseline.ofRecords, Baseline.averageOf?, FileStatistics.ofSamples,
        averageSeconds, averageBytes]

theorem resolved_of_measured? {d : Document} {baseline name : String} {m : Measured}
    (h : measured? d baseline name = some m) : m.Resolved d baseline name := by
  obtain ⟨s, hs, rfl⟩ := Option.map_eq_some_iff.mp h
  refine ⟨hs, ?_, ?_, fun f hf => ?_⟩
  · rw [baselineOf_eq]
    exact Baseline.resolved_apply _ _ _ _
  · simp [fileRow, Function.comp_def]
  · obtain ⟨p, -, rfl⟩ := List.mem_map.mp hf
    rw [fileRow, fileBaseline_eq]
    exact Baseline.resolved_apply _ _ _ _

theorem resolved_of_row {d : Document} {baseline : String} {expected : List Algorithm}
    {r : ComparisonRow} (hr : r ∈ (build d baseline expected).rows) {m : Measured}
    (hm : r.result = some m) : m.Resolved d baseline r.algorithm := by
  obtain ⟨name, -, rfl⟩ := List.mem_map.mp hr
  exact resolved_of_measured? hm

theorem isUsable_build (d : Document) (baseline : String) (expected : List Algorithm) :
    (build d baseline expected).isUsable = false ↔
      ¬ Comparable averageSeconds (d.recordsFor baseline) ∧
        ¬ Comparable averageBytes (d.recordsFor baseline) := by
  rw [build, baselineOf_eq, ← Bool.not_eq_true, Baseline.isUsable_ofRecords, not_or]

/-- A baseline with measurements is in the document, so it has a row of its own. -/
theorem exists_baseline_row {d : Document} {baseline : String} (expected : List Algorithm)
    (h : d.recordsFor baseline ≠ []) :
    ∃ r ∈ (build d baseline expected).rows, ∃ m, r.result = some m := by
  obtain ⟨r, hr, -, hresult⟩ := (exists_result_iff d baseline expected baseline).mpr h
  exact ⟨r, hr, Option.ne_none_iff_exists'.mp hresult⟩

theorem isUsable_eq_false_iff (d : Document) (baseline : String) (expected : List Algorithm) :
    (build d baseline expected).isUsable = false ↔
      ∀ r ∈ (build d baseline expected).rows, ∀ m, r.result = some m →
        m.relative = ⟨.error baseline, .error baseline⟩ := by
  rw [isUsable_build]
  constructor
  · exact fun h r hr m hm => (resolved_of_row hr hm).relative.eq_error_iff.mpr h
  · intro hall
    -- Where the baseline has measurements, its own row shows which columns can be compared.
    by_cases hnone : d.recordsFor baseline = []
    · simp [Comparable, hnone]
    · obtain ⟨r, hr, m, hm⟩ := exists_baseline_row expected hnone
      exact (resolved_of_row hr hm).relative.eq_error_iff.mp (hall r hr m hm)

/-- The percentages of any document against any baseline. In each row with measurements, and in each
of its files, either column has a percentage if the baseline has measurements, of that file for a
file, with an average in that column that is finite and greater than zero, and is without one
otherwise, whatever the other column has. The baseline is unusable exactly if neither column has such
an average over all its measurements. The summary says so exactly if no row has a percentage, and
then shows none in any of its cells for them. -/
theorem percentages_resolved (d : Document) (baseline : String) (expected : List Algorithm) :
    let c := build d baseline expected
    let base := d.recordsFor baseline
    let spread := Report.showsSpread d
    (∀ r ∈ c.rows, ∀ m, r.result = some m → m.Resolved d baseline r.algorithm) ∧
    (c.isUsable = false ↔ ¬ Comparable averageSeconds base ∧ ¬ Comparable averageBytes base) ∧
    (Report.unavailableNote baseline ∈ Report.summary d c ↔ ∀ r ∈ c.rows, ∀ m, r.result = some m →
      m.relative = ⟨.error baseline, .error baseline⟩) ∧
    Report.summaryHeader spread =
      "  " ++ " ".intercalate ((Report.columns spread).map (fun x => x.set x.name)) ∧
    (Report.unavailableNote baseline ∈ Report.summary d c →
      ∀ r ∈ c.rows, ∀ m, r.result = some m →
        let cells := Report.cells spread r.algorithm m
        Report.summaryLine spread r = Report.marker r ++ " ".intercalate cells ∧
        cells.length = (Report.columns spread).length ∧
        ∀ x ∈ (Report.columns spread).zip cells, x.1.name = "Rel%" → x.2 = x.1.set "n/a") := by
  intro c base spread
  have hnote : Report.unavailableNote baseline ∈ Report.summary d c ↔ c.isUsable = false :=
    Report.unavailableNote_mem_summary d c
  refine ⟨fun r hr m hm => resolved_of_row hr hm, isUsable_build d baseline expected,
    hnote.trans (isUsable_eq_false_iff d baseline expected), Report.summaryHeader_eq spread,
    fun hmem r hr m hm => ?_⟩
  have hnone := (isUsable_eq_false_iff d baseline expected).mp (hnote.mp hmem) r hr m hm
  refine ⟨Report.summaryLine_of_measured spread hm, ?_⟩
  exact Report.relative_cells spread r.algorithm (congrArg Relative.seconds hnone)
    (congrArg Relative.bytes hnone)

/-- The baseline compresses to nothing, and it lacks a file of the other algorithm. -/
def zeroSizeDocument : Document :=
  ⟨"t", "default", 1, none, "GZIP",
    [⟨"GZIP", [⟨1, [⟨"a.jfr", 2.0, 0⟩]⟩]⟩,
      ⟨"XZ", [⟨1, [⟨"a.jfr", 1.0, 10⟩, ⟨"b.jfr", 3.0, 30⟩]⟩]⟩]⟩

theorem percentages_resolved_sample :
    (∀ r ∈ (build zeroSizeDocument "GZIP" []).rows, ∀ m, r.result = some m →
      m.relative.seconds = .ok (m.statistics.averageSeconds / 2.0 * 100.0) ∧
      m.relative.bytes = .error "GZIP" ∧
      ∀ f ∈ m.files, f.file = "b.jfr" → f.relative.seconds = .error "GZIP") ∧
    Report.unavailableNote "GZIP" ∉
      Report.summary zeroSizeDocument (build zeroSizeDocument "GZIP" []) ∧
    Report.unavailableNote "ZSTD" ∈
      Report.summary zeroSizeDocument (build zeroSizeDocument "ZSTD" []) := by
  have hbase : zeroSizeDocument.recordsFor "GZIP" = [⟨"a.jfr", 2.0, 0⟩] := rfl
  have hseconds : averageSeconds [⟨"a.jfr", 2.0, 0⟩] = 2.0 := by
    simp only [averageSeconds, Statistics.seconds, Statistics.sorted, List.map_cons, List.map_nil,
      List.mergeSort_singleton]
    decide +kernel
  have hbytes : averageBytes [⟨"a.jfr", 2.0, 0⟩] = 0.0 := by
    simp only [averageBytes, Statistics.sizes, Statistics.sorted, List.map_cons, List.map_nil,
      List.mergeSort_singleton]
    decide +kernel
  have hshort : Comparable averageSeconds [⟨"a.jfr", 2.0, 0⟩] := by
    rw [Comparable, hseconds]
    decide +kernel
  have hempty : ¬ Comparable averageBytes [⟨"a.jfr", 2.0, 0⟩] := by
    rw [Comparable, hbytes]
    decide +kernel
  have hnever : ∀ average, ¬ Comparable average (zeroSizeDocument.recordsFor "ZSTD") :=
    fun _ h => h.1 rfl
  obtain ⟨hrow, -, hnote, -, -⟩ := percentages_resolved zeroSizeDocument "GZIP" []
  obtain ⟨hrow', -, hnote', -, -⟩ := percentages_resolved zeroSizeDocument "ZSTD" []
  refine ⟨fun r hr m hm => ?_, ?_, ?_⟩
  · have hm := hrow r hr m hm
    have hs := hm.relative.seconds
    have hb := hm.relative.bytes
    rw [hbase, if_pos hshort, hseconds] at hs
    rw [hbase, if_neg hempty] at hb
    refine ⟨hs, hb, fun f hf hname => ?_⟩
    have hother := (hm.fileRelative f hf).seconds
    rwa [hname, if_neg (by decide +kernel)] at hother
  · intro hmem
    obtain ⟨r, hr, m, hm⟩ := exists_baseline_row [] (hbase ▸ List.cons_ne_nil _ _)
    have herror := (hrow r hr m hm).relative.eq_error_iff.mp (hnote.mp hmem r hr m hm)
    exact herror.1 (hbase ▸ hshort)
  · refine hnote'.mpr (fun r hr m hm => ?_)
    exact (hrow' r hr m hm).relative.eq_error_iff.mpr ⟨hnever _, hnever _⟩

end Comparison

end CompressionSweep
