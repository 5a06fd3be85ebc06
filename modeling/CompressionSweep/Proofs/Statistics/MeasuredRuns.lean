import CompressionSweep.Proofs.RoundTrip
import CompressionSweep.Proofs.Statistics.Partition

/-! The runs that the spread of an algorithm is taken over. A run entry without measurements, which
no sweep makes but a file may hold, counts for the algorithm and for none of its files. -/

namespace CompressionSweep

open Statistics

namespace Statistics

theorem sorted_of_pairwise {xs : List Float}
    (h : xs.Pairwise (fun x y => Decimal.orderKey x ≤ Decimal.orderKey y)) : sorted xs = xs :=
  List.mergeSort_of_pairwise (by simpa using h)

theorem spread_of_le_one {xs : List Float} {runs : Nat} (h : runs ≤ 1 ∨ xs.length ≤ 1) :
    spread xs runs = 0.0 := by
  rw [spread, if_neg (by omega)]

theorem spread_of_one_lt {xs : List Float} {runs : Nat} (hruns : 1 < runs) (hxs : 1 < xs.length) :
    spread xs runs = sampleDeviation xs := by
  rw [spread, if_pos ⟨hruns, hxs⟩]

theorem spread_congr {m n : Nat} (h : 1 < m ↔ 1 < n) (xs : List Float) :
    spread xs m = spread xs n := by
  simp [spread, h]

end Statistics

namespace AlgorithmEntry

def measuredRuns (e : AlgorithmEntry) : List RunEntry :=
  e.runs.filter (!·.results.isEmpty)

def emptyRuns (e : AlgorithmEntry) : List RunEntry :=
  e.runs.filter (·.results.isEmpty)

theorem length_runs (e : AlgorithmEntry) :
    e.runs.length = e.measuredRuns.length + e.emptyRuns.length := by
  rw [List.length_eq_length_filter_add (·.results.isEmpty), Nat.add_comm]
  rfl

/-- Distinct entries have distinct numbers, so that the samples come from as many runs as have
any. -/
theorem card_runs_samples {e : AlgorithmEntry} (hnd : (e.runs.map (·.run)).Nodup) :
    (e.samples.map (·.1)).toFinset.card = e.measuredRuns.length := by
  have hset : (e.samples.map (·.1)).toFinset = (e.measuredRuns.map (·.run)).toFinset := by
    ext run
    simp only [samples, measuredRuns, List.mem_toFinset, List.mem_map, List.mem_flatMap,
      List.mem_filter]
    constructor
    · rintro ⟨x, ⟨r, hr, m, hm, rfl⟩, rfl⟩
      exact ⟨r, ⟨hr, by simp [List.ne_nil_of_mem hm]⟩, rfl⟩
    · rintro ⟨r, ⟨hr, hsome⟩, rfl⟩
      obtain ⟨m, hm⟩ := List.exists_mem_of_ne_nil r.results (by simpa using hsome)
      exact ⟨(r.run, m), ⟨r, hr, m, hm, rfl⟩, rfl⟩
  have hsub : (e.measuredRuns.map (·.run)).Sublist (e.runs.map (·.run)) :=
    List.filter_sublist.map _
  rw [hset, List.toFinset_card_of_nodup (hnd.sublist hsub), List.length_map]

theorem length_measuredRuns_of_one {e : AlgorithmEntry} (hnd : (e.runs.map (·.run)).Nodup)
    (hne : e.records ≠ []) {run : UInt32} (h : ∀ x ∈ e.samples, x.1 = run) :
    e.measuredRuns.length = 1 := by
  obtain ⟨x, hx⟩ := List.exists_mem_of_ne_nil _ (samples_ne_nil hne)
  have hset : (e.samples.map (·.1)).toFinset = {run} := by
    ext run'
    simp only [List.mem_toFinset, List.mem_map, Finset.mem_singleton]
    constructor
    · rintro ⟨y, hy, rfl⟩
      exact h y hy
    · rintro rfl
      exact ⟨x, hx, h x hx⟩
  rw [← card_runs_samples hnd, hset, Finset.card_singleton]

theorem statistics_samples (e : AlgorithmEntry) :
    FileStatistics.ofSamples e.samples =
      let runs := (FileStatistics.ofSamples e.samples).runs
      ⟨averageSeconds e.records, spread (seconds e.records) runs, averageBytes e.records,
        spread (sizes e.records) runs, e.records.length, runs⟩ := by
  rw [e.records_eq]
  rfl

end AlgorithmEntry

namespace Document

/-- If all measurements of an algorithm are of one file, the file has the same samples. -/
theorem fileStatistics?_of_one {d : Document} {name : String} {e : AlgorithmEntry}
    (he : d.algorithm? name = some e) (hne : e.records ≠ []) {file : String}
    (h : ∀ m ∈ e.records, m.file = file) :
    d.fileStatistics? name file = some (.ofSamples e.samples) := by
  have hall : e.samples.filter (·.2.file == file) = e.samples := by
    refine List.filter_eq_self.mpr (fun x hx => beq_iff_eq.mpr (h x.2 ?_))
    rw [e.records_eq]
    exact List.mem_map_of_mem hx
  rw [fileStatistics?_of_algorithm? he, hall, if_neg (AlgorithmEntry.samples_ne_nil hne)]

/-- The statistics of an algorithm in a document that has been loaded, whatever it repeats or leaves
out. Its runs are those with a measurement and the empty ones. Without empty ones there is no spread
if all measurements belong to one run, and the statistics of the algorithm are those of its file if
all belong to one file. Empty ones change nothing but the number of runs, and the spread where one
run holds several measurements: there the algorithm has the deviation of a sample instead of none. -/
theorem spread_over_runs {t : Tree} {path : String} {d : Document}
    (hload : Store.load t path = .ok (some d)) {name : String} {e : AlgorithmEntry} {s : Aggregate}
    (he : d.algorithm? name = some e) (hs : d.aggregate? name = some s) :
    s.runs = e.measuredRuns.length + e.emptyRuns.length ∧
    (∀ run, (∀ x ∈ e.samples, x.1 = run) →
      (e.emptyRuns = [] ∨ s.samples = 1 → s.spreadSeconds = 0.0 ∧ s.spreadBytes = 0.0) ∧
      (e.emptyRuns ≠ [] → s.samples ≠ 1 → s.spreadSeconds = sampleDeviation (seconds e.records) ∧
        s.spreadBytes = sampleDeviation (sizes e.records))) ∧
    ∀ file, (∀ m ∈ e.records, m.file = file) →
      ∃ f, d.fileStatistics? name file = some f ∧ f.averageSeconds = s.averageSeconds ∧
        f.averageBytes = s.averageBytes ∧ f.samples = s.samples ∧
        s.runs = f.runs + e.emptyRuns.length ∧
        (e.emptyRuns = [] ∨ 1 < f.runs →
          f.spreadSeconds = s.spreadSeconds ∧ f.spreadBytes = s.spreadBytes) := by
  have hnd : (e.runs.map (·.run)).Nodup :=
    ((Store.storable_of_load hload).entries e (List.mem_of_find?_eq_some he)).distinct
  obtain ⟨e', he', -, hs⟩ := exists_of_aggregate? hs
  obtain rfl : e = e' := Option.some.inj (he.symm.trans he')
  obtain ⟨hne, rfl⟩ := AlgorithmEntry.aggregate?_eq_some_iff.mp hs
  have hruns := e.length_runs
  refine ⟨hruns, fun run hone => ?_, fun file hone => ?_⟩
  · have hmeasured := AlgorithmEntry.length_measuredRuns_of_one hnd hne hone
    have hpos : 0 < e.records.length := List.length_pos_iff.mpr hne
    have hseconds := length_seconds e.records
    have hsizes := length_sizes e.records
    constructor
    · rintro (hempty | hsingle)
      · rw [hempty, hmeasured] at hruns
        exact ⟨spread_of_le_one (.inl hruns.le), spread_of_le_one (.inl hruns.le)⟩
      · dsimp only at hsingle
        exact ⟨spread_of_le_one (.inr (by omega)), spread_of_le_one (.inr (by omega))⟩
    · intro hempty hseveral
      have hmore : 1 < e.runs.length := by
        have := List.length_pos_iff.mpr hempty
        omega
      dsimp only at hseveral
      exact ⟨spread_of_one_lt hmore (by omega), spread_of_one_lt hmore (by omega)⟩
  · have hcount : (FileStatistics.ofSamples e.samples).runs = e.measuredRuns.length :=
      (FileStatistics.runs_ofSamples _).trans (AlgorithmEntry.card_runs_samples hnd)
    have hspread : e.emptyRuns = [] ∨ 1 < e.measuredRuns.length →
        (1 < (FileStatistics.ofSamples e.samples).runs ↔ 1 < e.runs.length) := by
      rintro (hempty | hmore)
      · rw [hcount, hruns, hempty, List.length_nil, Nat.add_zero]
      · omega
    refine ⟨_, fileStatistics?_of_one he hne hone, ?_⟩
    rw [hcount, e.statistics_samples]
    refine ⟨rfl, rfl, rfl, hruns, fun h => ?_⟩
    exact ⟨spread_congr (hspread h) _, spread_congr (hspread h) _⟩

def savedTree (d : Document) : Tree :=
  ((⟨d, some "r.json"⟩ : Store).flush Faults.none ⟨[], []⟩).2

theorem load_savedTree {d : Document} (hd : d.Storable) :
    Store.load (savedTree d) "r.json" = .ok (some d) :=
  Store.load_of_read (Store.read_of_flush
    (rfl : (⟨d, some "r.json"⟩ : Store).flush Faults.none ⟨[], []⟩ = (.ok (), savedTree d))) hd

/-- One algorithm with one run, and one with two runs of one file. -/
def fullDocument : Document :=
  ⟨"t", "default", 2, none, "GZIP",
    [⟨"GZIP", [⟨2, [⟨"a.jfr", 1.0, 10⟩, ⟨"b.jfr", 3.0, 30⟩]⟩]⟩,
      ⟨"XZ", [⟨2, [⟨"a.jfr", 1.0, 10⟩]⟩, ⟨1, [⟨"a.jfr", 3.0, 30⟩, ⟨"a.jfr", 4.0, 5⟩]⟩]⟩]⟩

theorem spread_over_runs_sample :
    Store.load (savedTree fullDocument) "r.json" = .ok (some fullDocument) ∧
    (∃ s, fullDocument.aggregate? "GZIP" = some s ∧ s.samples = 2 ∧ s.spreadSeconds = 0.0) ∧
    ∃ s f, fullDocument.aggregate? "XZ" = some s ∧
      fullDocument.fileStatistics? "XZ" "a.jfr" = some f ∧ s.runs = 2 ∧
      f.spreadSeconds = s.spreadSeconds := by
  have hload := load_savedTree (by decide : fullDocument.Storable)
  have hgzip := (spread_over_runs hload (rfl : fullDocument.algorithm? "GZIP" = some _) rfl).2.1 2
    (by decide)
  obtain ⟨f, hf, -, -, -, -, hspread⟩ :=
    (spread_over_runs hload (rfl : fullDocument.algorithm? "XZ" = some _) rfl).2.2 "a.jfr"
      (by decide)
  exact ⟨hload, ⟨_, rfl, rfl, (hgzip.1 (.inl (by decide))).1⟩,
    _, f, rfl, hf, rfl, (hspread (.inl (by decide))).1⟩

/-- All measurements in one run and of one file, and a run without any. -/
def sparseDocument : Document :=
  ⟨"t", "default", 2, none, "GZIP",
    [⟨"GZIP", [⟨1, [⟨"a.jfr", 1.0, 10⟩, ⟨"a.jfr", 3.0, 30⟩]⟩, ⟨2, []⟩]⟩]⟩

theorem spread_of_empty_run :
    Store.load (savedTree sparseDocument) "r.json" = .ok (some sparseDocument) ∧
    ∃ e s f, sparseDocument.algorithm? "GZIP" = some e ∧
      sparseDocument.aggregate? "GZIP" = some s ∧
      sparseDocument.fileStatistics? "GZIP" "a.jfr" = some f ∧
      (∀ x ∈ e.samples, x.1 = 1) ∧ (∀ m ∈ e.records, m.file = "a.jfr") ∧
      s.spreadSeconds ≠ 0.0 ∧ s.spreadBytes ≠ 0.0 ∧
      f.spreadSeconds ≠ s.spreadSeconds ∧ f.runs ≠ s.runs := by
  have hseconds : spread (sorted [1.0, 3.0]) 2 ≠ 0.0 := by
    rw [sorted_of_pairwise (by decide +kernel)]
    decide +kernel
  have hbytes : spread (sorted [UInt64.toFloat 10, UInt64.toFloat 30]) 2 ≠ 0.0 := by
    rw [sorted_of_pairwise (by decide +kernel)]
    decide +kernel
  have hfile : spread (sorted [1.0, 3.0]) 1 = 0.0 := spread_of_le_one (.inl le_rfl)
  exact ⟨load_savedTree (by decide), _, _, _, rfl, rfl, rfl, by decide, by decide, hseconds, hbytes,
    fun h => hseconds (h.symm.trans hfile), by decide⟩

end Document

end CompressionSweep
