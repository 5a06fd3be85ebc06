import CompressionSweep.Proofs.Document.Arrivals
import CompressionSweep.Proofs.Statistics.Groups
import CompressionSweep.Proofs.Text.ByteOrder

/-! The statistics of one file: from the groups of all files, or from the samples of that file
alone. -/

namespace CompressionSweep

namespace AlgorithmEntry

/-- The files that an algorithm has measurements of, each once. -/
def files (e : AlgorithmEntry) : List String :=
  (groupByFile e.samples).map (·.1)

theorem mem_files (e : AlgorithmEntry) (file : String) :
    file ∈ e.files ↔ file ∈ e.records.map (·.file) := by
  rw [files, (grouped_groupByFile e.samples).covers, e.records_eq, List.map_map]
  rfl

theorem files_sorted (e : AlgorithmEntry) :
    e.files.Pairwise (fun a b => Text.utf8 a < Text.utf8 b) :=
  (grouped_groupByFile e.samples).sorted.imp Text.utf8_lt_iff.mpr

theorem mem_files_iff_samples (e : AlgorithmEntry) (file : String) :
    file ∈ e.files ↔ e.samples.filter (·.2.file == file) ≠ [] := by
  rw [files, (grouped_groupByFile e.samples).covers, ne_eq, List.filter_eq_nil_iff]
  simp

end AlgorithmEntry

namespace Document

theorem perFile_of_algorithm? {d : Document} {name : String} {e : AlgorithmEntry}
    (h : d.algorithm? name = some e) :
    d.perFile name =
      e.files.map (fun file => (file, .ofSamples (e.samples.filter (·.2.file == file)))) := by
  rw [perFile, h]
  exact map_groupByFile FileStatistics.ofSamples e.samples

theorem lookup_perFile {d : Document} {name : String} {e : AlgorithmEntry}
    (h : d.algorithm? name = some e) (file : String) :
    (d.perFile name).lookup file = if e.samples.filter (·.2.file == file) = [] then none
      else some (.ofSamples (e.samples.filter (·.2.file == file))) := by
  rw [perFile_of_algorithm? h]
  split_ifs with hnone
  · refine List.lookup_eq_none_iff.mpr (fun p hp => ?_)
    obtain ⟨file', hfile', rfl⟩ := List.mem_map.mp hp
    have hne : file ≠ file' := fun heq =>
      (e.mem_files_iff_samples file').mp hfile' (heq ▸ hnone)
    simpa using hne
  · exact List.lookup_graph _ ((e.mem_files_iff_samples file).mpr hnone)

theorem fileStatistics?_of_algorithm? {d : Document} {name : String} {e : AlgorithmEntry}
    (h : d.algorithm? name = some e) (file : String) :
    d.fileStatistics? name file = if e.samples.filter (·.2.file == file) = [] then none
      else some (.ofSamples (e.samples.filter (·.2.file == file))) := by
  rw [fileStatistics?, h]
  simp only [Option.bind_some, List.isEmpty_iff]

/-- The statistics of a file are those that stand under it among the statistics of all files of the
algorithm, and there are none where there is no such entry. The entries are for exactly the files
that the algorithm has a measurement of, each once, sorted by the bytes of their names. -/
theorem file_statistics_agree (d : Document) (name : String) :
    let files := (d.perFile name).map (·.1)
    (∀ file, d.fileStatistics? name file = (d.perFile name).lookup file) ∧
    (∀ file, d.fileStatistics? name file = none ↔ file ∉ files) ∧
    (∀ file, file ∈ files ↔ file ∈ (d.recordsFor name).map (·.file)) ∧
    files.Nodup ∧ files.Pairwise (fun a b => Text.utf8 a < Text.utf8 b) := by
  intro files
  cases h : d.algorithm? name with
  | none =>
    have hempty : d.perFile name = [] := by rw [perFile, h]
    have hrecords : d.recordsFor name = [] := by rw [recordsFor, h]
    have hno : ∀ file, d.fileStatistics? name file = none := fun file => by
      rw [fileStatistics?, h]
      rfl
    have hfiles : files = [] := congrArg (List.map (·.1)) hempty
    rw [hfiles, hempty, hrecords]
    exact ⟨hno, fun file => ⟨fun _ => List.not_mem_nil, fun _ => hno file⟩, fun _ => Iff.rfl,
      List.nodup_nil, List.Pairwise.nil⟩
  | some e =>
    have hrecords : d.recordsFor name = e.records := by rw [recordsFor, h]
    have hfiles : files = e.files := by
      change (d.perFile name).map (·.1) = e.files
      rw [perFile_of_algorithm? h, List.map_map]
      exact List.map_id _
    have hsorted := (grouped_groupByFile e.samples).sorted
    rw [hfiles, hrecords]
    refine ⟨fun file => ?_, fun file => ?_, e.mem_files, hsorted.imp ne_of_lt, e.files_sorted⟩
    · rw [fileStatistics?_of_algorithm? h, lookup_perFile h]
    · rw [fileStatistics?_of_algorithm? h, e.mem_files_iff_samples]
      split_ifs with hnone <;> simp [hnone]

/-- Two files by turns, a run number twice, and a run without measurements. -/
def scatteredDocument : Document :=
  ⟨"t", "default", 3, none, "GZIP", [⟨"GZIP",
    [⟨1, [⟨"b.jfr", 1.5, 10⟩, ⟨"a.jfr", 2.5, 20⟩, ⟨"b.jfr", 0.5, 30⟩]⟩, ⟨2, []⟩,
      ⟨1, [⟨"b.jfr", 4.5, 40⟩]⟩, ⟨3, [⟨"a.jfr", 5.5, 50⟩]⟩]⟩]⟩

theorem file_statistics_agree_sample :
    (scatteredDocument.perFile "GZIP").map (·.1) = ["a.jfr", "b.jfr"] ∧
    (∃ f, scatteredDocument.fileStatistics? "GZIP" "b.jfr" = some f ∧
      (scatteredDocument.perFile "GZIP").lookup "b.jfr" = some f ∧ f.samples = 3 ∧ f.runs = 1) ∧
    scatteredDocument.fileStatistics? "GZIP" "c.jfr" = none := by
  obtain ⟨hlookup, hnone, -, -⟩ := file_statistics_agree scatteredDocument "GZIP"
  have hfiles : (scatteredDocument.perFile "GZIP").map (·.1) = ["a.jfr", "b.jfr"] := by
    decide +kernel
  refine ⟨hfiles, ⟨_, rfl, (hlookup "b.jfr").symm, rfl, rfl⟩, (hnone "c.jfr").mpr ?_⟩
  rw [hfiles]
  decide

end Document

end CompressionSweep
