import CompressionSweep.Proofs.Statistics.Aggregate
import CompressionSweep.Proofs.Statistics.Files

/-! The files of an algorithm divide its samples among them. Each sample counts once, for its own
file, and a run counts once for a file, however many measurements of the file it holds. -/

namespace CompressionSweep

theorem length_distinct {α : Type} [BEq α] [LawfulBEq α] [DecidableEq α] (as : List α) :
    (distinct as).length = as.toFinset.card := by
  have hset : (distinct as).toFinset = as.toFinset := by
    ext a
    simp [mem_distinct]
  rw [← hset, List.toFinset_card_of_nodup (nodup_distinct as)]

namespace AlgorithmEntry

/-- The numbers of the runs that hold a measurement of a file. -/
def runsMeasuring (e : AlgorithmEntry) (file : String) : Finset UInt32 :=
  ((e.runs.filter (·.results.any (·.file == file))).map (·.run)).toFinset

variable (e : AlgorithmEntry) (file : String)

theorem runsMeasuring_eq :
    e.runsMeasuring file = ((e.samples.filter (·.2.file == file)).map (·.1)).toFinset := by
  ext run
  simp only [runsMeasuring, samples, List.mem_toFinset, List.mem_map, List.mem_filter,
    List.mem_flatMap, List.any_eq_true]
  constructor
  · rintro ⟨r, ⟨hr, m, hm, hfile⟩, rfl⟩
    exact ⟨(r.run, m), ⟨⟨r, hr, m, hm, rfl⟩, hfile⟩, rfl⟩
  · rintro ⟨x, ⟨⟨r, hr, m, hm, rfl⟩, hfile⟩, rfl⟩
    exact ⟨r, ⟨hr, m, hm, hfile⟩, rfl⟩

theorem card_runsMeasuring_le : (e.runsMeasuring file).card ≤ e.runs.length := by
  have hcard := List.toFinset_card_le ((e.runs.filter (·.results.any (·.file == file))).map (·.run))
  have hfilter := List.length_filter_le (·.results.any (·.file == file)) e.runs
  rw [List.length_map] at hcard
  exact hcard.trans hfilter

/-- The files have all samples between them, and no two the same one. -/
theorem sum_length_files :
    (e.files.map (fun file => (e.samples.filter (·.2.file == file)).length)).sum =
      e.samples.length := by
  let names := e.samples.map (·.2.file)
  have hgrouped := grouped_groupByFile e.samples
  have hfiles : e.files.Perm names.dedup := by
    refine (List.perm_ext_iff_of_nodup (hgrouped.sorted.imp ne_of_lt) names.nodup_dedup).mpr ?_
    intro file
    rw [hgrouped.covers, List.mem_dedup]
  have hcount : ∀ file, (e.samples.filter (·.2.file == file)).length = names.count file := by
    intro file
    rw [List.count_eq_countP, List.countP_map, List.countP_eq_length_filter]
    rfl
  calc (e.files.map (fun file => (e.samples.filter (·.2.file == file)).length)).sum
      = (e.files.map names.count).sum := by simp only [hcount]
    _ = (names.dedup.map names.count).sum := (hfiles.map _).sum_eq
    _ = names.length := List.sum_map_count_dedup_eq_length names
    _ = e.samples.length := List.length_map _

end AlgorithmEntry

namespace FileStatistics

theorem runs_ofSamples (ss : List Sample) : (ofSamples ss).runs = (ss.map (·.1)).toFinset.card :=
  length_distinct _

theorem samples_ofSamples (ss : List Sample) : (ofSamples ss).samples = ss.length :=
  List.length_map _

theorem runs_pos {ss : List Sample} (h : ss ≠ []) : 1 ≤ (ofSamples ss).runs := by
  obtain ⟨s, ss, rfl⟩ := List.exists_cons_of_ne_nil h
  rw [runs_ofSamples]
  exact Finset.card_pos.mpr ⟨s.1, by simp⟩

theorem runs_le_samples (ss : List Sample) : (ofSamples ss).runs ≤ (ofSamples ss).samples := by
  have hcard := List.toFinset_card_le (ss.map (·.1))
  rwa [List.length_map, ← runs_ofSamples, ← samples_ofSamples] at hcard

end FileStatistics

namespace Document

theorem perFile_eq_nil_iff (d : Document) (name : String) :
    d.perFile name = [] ↔ d.recordsFor name = [] := by
  cases h : d.algorithm? name with
  | none => simp [perFile, recordsFor, h]
  | some e =>
    have hfiles : e.files = [] ↔ e.records = [] := by
      simp only [List.eq_nil_iff_forall_not_mem, e.mem_files, List.mem_map]
      constructor
      · exact fun hno m hm => hno m.file ⟨m, hm, rfl⟩
      · rintro hno _ ⟨m, hm, -⟩
        exact hno m hm
    have hrecords : d.recordsFor name = e.records := by rw [recordsFor, h]
    rw [perFile_of_algorithm? h, List.map_eq_nil_iff, hfiles, hrecords]

/-- An algorithm has statistics exactly if a file has. Then each of its measurements, in whichever
run, is counted for exactly one file, and a file is counted in exactly the runs that hold a
measurement of it, each once: in at least one, and in no more than it has samples or the algorithm
has runs. -/
theorem files_partition_samples (d : Document) (name : String) :
    (d.aggregate? name = none ↔ d.perFile name = []) ∧
    ∀ s, d.aggregate? name = some s →
      ((d.perFile name).map (·.2.samples)).sum = s.samples ∧
      ∃ e, d.algorithm? name = some e ∧ s.samples = (e.runs.map (·.results.length)).sum ∧
        ∀ f ∈ d.perFile name, 1 ≤ f.2.runs ∧ f.2.runs ≤ min f.2.samples s.runs ∧
          f.2.runs = (e.runsMeasuring f.1).card := by
  refine ⟨(d.aggregate?_eq_none_iff name).trans (d.perFile_eq_nil_iff name).symm, fun s hs => ?_⟩
  obtain ⟨e, he, -, hs⟩ := exists_of_aggregate? hs
  obtain ⟨-, rfl⟩ := AlgorithmEntry.aggregate?_eq_some_iff.mp hs
  rw [perFile_of_algorithm? he]
  refine ⟨?_, e, he, e.length_records, fun f hf => ?_⟩
  · have hsum := e.sum_length_files
    rw [e.length_samples] at hsum
    simpa [Function.comp_def, FileStatistics.samples_ofSamples] using hsum
  · obtain ⟨file, hfile, rfl⟩ := List.mem_map.mp hf
    have hsome := (e.mem_files_iff_samples file).mp hfile
    have hruns := FileStatistics.runs_ofSamples (e.samples.filter (·.2.file == file))
    rw [← e.runsMeasuring_eq] at hruns
    refine ⟨FileStatistics.runs_pos hsome, le_min (FileStatistics.runs_le_samples _) ?_, hruns⟩
    exact hruns.le.trans (e.card_runsMeasuring_le file)

theorem files_partition_samples_sample :
    ∃ s, scatteredDocument.aggregate? "GZIP" = some s ∧ s.samples = 5 ∧ s.runs = 4 ∧
      ((scatteredDocument.perFile "GZIP").map (·.2.samples)).sum = 5 ∧
      ∀ f ∈ scatteredDocument.perFile "GZIP", f.2.runs ≤ min f.2.samples 4 := by
  obtain ⟨hsum, e, -, -, hfiles⟩ := (files_partition_samples scatteredDocument "GZIP").2 _ rfl
  exact ⟨_, rfl, rfl, rfl, hsum, fun f hf => (hfiles f hf).2.1⟩

end Document

end CompressionSweep
