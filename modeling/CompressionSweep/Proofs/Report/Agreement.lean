import CompressionSweep.Proofs.Comparison.Rows
import CompressionSweep.Proofs.Document.Grouping
import CompressionSweep.Proofs.Report.Sections
import CompressionSweep.Proofs.Statistics.Partition

/-! The three tables of a report are about the same measurements: what one of them shows of an
algorithm can be told from each of the others. -/

namespace CompressionSweep

theorem Algorithm.isLine_name (a : Algorithm) : Report.IsLine a.name := by
  cases a <;> decide

namespace Comparison

variable {d : Document} {baseline name : String} {expected : List Algorithm}

theorem isPlain_row (hplain : d.HasPlainNames) :
    ∀ r ∈ (build d baseline expected).rows, r.IsPlain := by
  intro r hr
  obtain ⟨name, hname, rfl⟩ := List.mem_map.mp hr
  refine ⟨?_, fun m hm f hf => ?_⟩
  · rcases List.mem_append.mp (mem_names.mp hname) with hname | hname
    · obtain ⟨a, -, rfl⟩ := List.mem_map.mp hname
      exact a.isLine_name
    · obtain ⟨e, he, rfl⟩ := List.mem_map.mp hname
      exact hplain.algorithms e he
  · obtain ⟨s, hs, rfl⟩ := Option.map_eq_some_iff.mp hm
    obtain ⟨e, he, -, -⟩ := Document.exists_of_aggregate? hs
    obtain ⟨p, hp, rfl⟩ := List.mem_map.mp hf
    rw [Document.perFile_of_algorithm? he] at hp
    obtain ⟨file, hfile, rfl⟩ := List.mem_map.mp hp
    obtain ⟨x, hx, rfl⟩ := List.mem_map.mp ((e.mem_files file).mp hfile)
    exact hplain.files e (List.mem_of_find?_eq_some he) x hx

theorem exists_measured {e : AlgorithmEntry} (he : d.algorithm? name = some e)
    (h : e.records ≠ []) (baseline : String) :
    ∃ m, (row d baseline name).result = some m ∧ m.statistics.samples = e.records.length ∧
      (m.files.map (·.statistics.samples)).sum = e.records.length := by
  have hs := AlgorithmEntry.aggregate?_eq_some_iff.mpr ⟨h, rfl⟩
  refine ⟨_, by rw [row, measured?, Document.aggregate?, he, Option.bind_some, hs]; rfl, rfl, ?_⟩
  rw [Document.perFile_of_algorithm? he, ← e.length_samples, ← e.sum_length_files]
  simp [fileRow, Function.comp_def, FileStatistics.samples_ofSamples]

end Comparison

namespace Report

open Comparison

section

variable {d : Document} (hplain : d.HasPlainNames)

include hplain

theorem exists_measured_line_iff (baseline : String) (expected : List Algorithm) (name : String) :
    (∃ line ∈ summaryLines d (build d baseline expected) name, ¬ SaysNoResults line) ↔
      d.recordsFor name ≠ [] := by
  rw [summaryLines_eq d (fun r hr => (isPlain_row hplain r hr).algorithm),
    ← exists_result_iff d baseline expected]
  simp [saysNoResults_summaryLine_iff, and_assoc]

theorem fileSections_ne_nil_iff (baseline : String) (expected : List Algorithm) (name : String) :
    fileSections (build d baseline expected) name ≠ [] ↔ d.recordsFor name ≠ [] := by
  rw [fileSections_eq (isPlain_row hplain), ← exists_result_iff d baseline expected]
  simp [List.filterMap_eq_nil_iff]

variable (hd : d.algorithmNames.Nodup)

include hd

theorem individualSections_ne_nil_iff (name : String) :
    individualSections d name ≠ [] ↔ d.recordsFor name ≠ [] := by
  rw [individualSections_eq hplain, not_iff_not, List.map_eq_nil_iff,
    List.filter_filter, List.filter_eq_nil_iff, Document.recordsFor_eq_nil_iff hd]
  simp [AlgorithmEntry.sampleCount_eq, List.length_pos_iff]

theorem individualSections_of_mem {e : AlgorithmEntry} (he : e ∈ d.compressions)
    (h : e.records ≠ []) : individualSections d e.algorithm = [e.recordLines] := by
  rw [individualSections_eq hplain, List.filter_comm,
    filter_eq_singleton_of_nodup hd he]
  simp [AlgorithmEntry.sampleCount_eq, List.length_pos_iff, h]

end

/-- The tables of a report agree, for any baseline and any expected algorithms. The table of all
measurements has a section for an algorithm exactly if the summary has a line for it that does not
say that there are no results, exactly if the comparison of the files has a section for it, and
exactly if a record is stored under its name. If no algorithm is expected twice, each with a record
has one section in both tables and one line. The section lists the records in stored order, each
once and with the number of its run. Their number is also the last one in the line of the summary,
and the sum of the last ones in the lines of the files. -/
theorem tables_agree {d : Document} (hd : (d.compressions.map (·.algorithm)).Nodup)
    (hplain : d.HasPlainNames) (baseline : String) (expected : List Algorithm) :
    let c := build d baseline expected
    (∀ name,
      (individualSections d name ≠ [] ↔
        ∃ line ∈ summaryLines d c name, ¬ SaysNoResults line) ∧
      (individualSections d name ≠ [] ↔ fileSections c name ≠ []) ∧
      (individualSections d name ≠ [] ↔
        ∃ e ∈ d.compressions, e.algorithm = name ∧ e.records ≠ [])) ∧
    (expected.Nodup → ∀ e ∈ d.compressions, e.records ≠ [] →
      ∃ (records files : List String) (line : String) (samples : List Nat),
        individualSections d e.algorithm = [records] ∧ summaryLines d c e.algorithm = [line] ∧
        fileSections c e.algorithm = [files] ∧
        records = e.runs.flatMap (fun r => r.results.map (recordLine r.run)) ∧
        records.map lastNumber? =
          e.runs.flatMap (fun r => r.results.map (fun _ => some r.run.toNat)) ∧
        lastNumber? line = some records.length ∧
        files.map lastNumber? = samples.map some ∧ samples.sum = records.length) := by
  intro c
  refine ⟨fun name => ⟨?_, ?_, ?_⟩, fun hexpected e he h => ?_⟩
  · rw [individualSections_ne_nil_iff hplain hd, exists_measured_line_iff hplain]
  · rw [individualSections_ne_nil_iff hplain hd, fileSections_ne_nil_iff hplain]
  · rw [individualSections_ne_nil_iff hplain hd, ne_eq, Document.recordsFor_eq_nil_iff hd]
    simp only [not_forall, exists_prop, ne_eq]
  have hfind : d.algorithm? e.algorithm = some e :=
    (find?_eq_some_iff_of_nodup hd).mpr ⟨he, rfl⟩
  have hrows := filter_rows_of_mem hd hexpected he baseline
  obtain ⟨m, hm, hline, hsum⟩ := exists_measured hfind h baseline
  refine ⟨e.recordLines, m.files.map fileLine, summaryLine (showsSpread d)
    (row d baseline e.algorithm), m.files.map (·.statistics.samples),
    individualSections_of_mem hplain hd he h, ?_, ?_, rfl, e.map_lastNumber?_recordLines, ?_, ?_,
    hsum.trans e.length_recordLines.symm⟩
  · rw [summaryLines_eq d (fun r hr => (isPlain_row hplain r hr).algorithm), hrows]
    rfl
  · rw [fileSections_eq (isPlain_row hplain), hrows]
    simp [hm]
  · rw [lastNumber?_summaryLine _ hm, hline, e.length_recordLines]
  · simp [Function.comp_def, lastNumber?_fileLine]

/-- An unknown algorithm with a file in two runs and a run number out of order, and a known one with
a run but without a record. -/
def printedSample : Document :=
  ⟨"t", "default", 2, none, "XZ",
    [⟨"brotli", [⟨3, [⟨"b.jfr", 1.5, 10⟩, ⟨"a.jfr", 2.5, 20⟩]⟩, ⟨1, [⟨"b.jfr", 0.5, 1234⟩]⟩]⟩,
      ⟨"GZIP", [⟨1, []⟩]⟩]⟩

/-- The name of the baseline may look like a section. -/
theorem tables_agree_sample :
    let c := build printedSample "x\n\nGZIP:" [.gzip, .xz]
    individualSections printedSample "GZIP" = [] ∧ fileSections c "GZIP" = [] ∧
    (∀ line ∈ summaryLines printedSample c "XZ", SaysNoResults line) ∧
    ∃ (records files : List String) (line : String) (samples : List Nat),
      individualSections printedSample "brotli" = [records] ∧
      records.map lastNumber? = [some 3, some 3, some 1] ∧
      summaryLines printedSample c "brotli" = [line] ∧ lastNumber? line = some 3 ∧
      fileSections c "brotli" = [files] ∧ files.map lastNumber? = samples.map some ∧
      samples.sum = 3 := by
  intro c
  have hd : (printedSample.compressions.map (·.algorithm)).Nodup := by decide
  have hplain : printedSample.HasPlainNames := ⟨by decide, by decide⟩
  obtain ⟨hall, heach⟩ := tables_agree hd hplain "x\n\nGZIP:" [.gzip, .xz]
  have hnone : ∀ name, name ≠ "brotli" → ¬ individualSections printedSample name ≠ [] := by
    intro name hname hsections
    obtain ⟨e, he, rfl, hrecords⟩ := (hall name).2.2.mp hsections
    rcases List.mem_pair.mp he with rfl | rfl
    · exact hname rfl
    · exact hrecords rfl
  have hgzip := hnone "GZIP" (by decide)
  have hxz := mt (hall "XZ").1.mpr (hnone "XZ" (by decide))
  obtain ⟨records, files, line, samples, hrecords, hline, hfiles, -, hruns, hcount, hsamples,
    hsum⟩ := heach (by decide) _ List.mem_cons_self (List.cons_ne_nil _ _)
  have hlength : records.length = 3 := by
    rw [← List.length_map (f := lastNumber?), hruns]
    rfl
  rw [hlength] at hcount hsum
  refine ⟨not_not.mp hgzip, not_not.mp (mt (hall "GZIP").2.1.mpr hgzip), ?_, records, files, line,
    samples, hrecords, hruns, hline, hcount, hfiles, hsamples, hsum⟩
  intro line hline
  by_contra hmeasured
  exact hxz ⟨line, hline, hmeasured⟩

end Report

end CompressionSweep
